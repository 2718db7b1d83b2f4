import AchievementLang.Bindings
import AchievementLang.Expr.Basic
import AchievementLang.Wire.Field

/-!
# Functions

The functions that scripts can call: those of the language, and those that a script declares.
A function is found by name in a table; a declaration replaces whatever had its name.
-/

namespace AchievementLang

/-- A function declared by a script. -/
structure Declaration where
  name : String
  params : List String
  defaults : Bindings Expr
  body : List Expr

/-- A function. -/
inductive Function
  /-- Reads memory of the given size at an address. -/
  | accessor (size : Wire.Size)
  /-- `bit(i, a)` is `biti(a)`. -/
  | bit
  /-- The previous value of a memory read. -/
  | prev
  /-- One hit is enough. -/
  | once
  /-- A number of hits is needed. -/
  | repeated
  /-- The condition resets all hits. -/
  | never
  /-- The condition pauses the group. -/
  | pausing
  /-- A condition that always or never holds. -/
  | constant (holds : Bool)
  /-- The largest of several values. -/
  | maxOf
  | achievement
  | leaderboard
  | declared (d : Declaration)

namespace Function

/-- The condition with the given constant truth. -/
def constantName (holds : Bool) : String := if holds then "always_true" else "always_false"

/-- The name of the function. -/
def name : Function → String
  | accessor size => size.name
  | bit => "bit"
  | prev => "prev"
  | once => "once"
  | repeated => "repeated"
  | never => "never"
  | pausing => "unless"
  | constant holds => constantName holds
  | maxOf => "max_of"
  | achievement => "achievement"
  | leaderboard => "leaderboard"
  | declared d => d.name

/-- The parameters, a last one named `...` for any number of further arguments. -/
def params : Function → List String
  | accessor _ => ["address"]
  | bit => ["index", "address"]
  | prev => ["accessor"]
  | once | never | pausing => ["comparison"]
  | repeated => ["count", "comparison"]
  | constant _ => []
  | maxOf => [ellipsis]
  | achievement => ["title", "description", "points", "trigger", "id"]
  | leaderboard => ["title", "description", "start", "cancel", "submit", "value", "format"]
  | declared d => d.params

/-- What parameters stand for that are not given. -/
def defaults : Function → Bindings Expr
  | achievement => [("id", .integer 0 none)]
  | leaderboard => [("format", .string "value" none)]
  | declared d => d.defaults
  | _ => []

/-- The function takes any number of further arguments. -/
def isVariadic (f : Function) : Bool := f.params.getLast? == some ellipsis

/-- The parameters that take one argument each. -/
def fixed (f : Function) : List String := if f.isVariadic then f.params.dropLast else f.params

/-- A reduced call denotes an operand of a requirement. -/
def isOperand : Function → Bool
  | accessor _ | prev => true
  | _ => false

/-- A reduced call denotes a condition. -/
def isCondition : Function → Bool
  | once | repeated | never | pausing | constant _ => true
  | _ => false

/-- The functions of the language. -/
def all : List Function :=
  Wire.Size.all.map accessor ++
    [bit, prev, once, repeated, never, pausing, constant true, constant false, maxOf, achievement,
     leaderboard]

end Function

/-- The functions that can be called, by name. -/
abbrev FunctionTable := Bindings Function

/-- The functions of the language, by name. -/
def FunctionTable.initial : FunctionTable := Function.all.map fun f => (f.name, f)

end AchievementLang

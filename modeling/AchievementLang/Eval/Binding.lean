import AchievementLang.Eval.Scope
import AchievementLang.Eval.State

/-!
# Binding arguments

A call binds the parameters of a function to its arguments, which are evaluated in the order in
which they are written, each in the scope of the caller. Arguments come here suspended
(`Argument.reduce`), so that binding knows nothing of how they are evaluated. Parameters that
are not given get their defaults, evaluated where all earlier parameters are bound. Arguments
beyond the parameters are collected unevaluated if the function takes any number of them.
-/

namespace AchievementLang

/-- An argument of a call. -/
structure Argument where
  /-- The parameter that it names. -/
  label : Option String
  /-- The argument itself, without its label. -/
  source : Expr
  loc : Option Loc
  /-- Evaluates the argument in the scope of the caller. -/
  reduce : Eval Expr

/-- The variable that holds the surplus arguments of a call. -/
def surplusVariable : String := "varargs"

/-- A function that is being called: its scope, with the parameters bound, and the surplus
arguments, yet to be evaluated. -/
structure Activation where
  function : Function
  scope : Scope
  surplus : List Argument
  /-- The place of the call. -/
  loc : Option Loc

namespace Activation

/-- What has been bound after some of the arguments. -/
structure Progress where
  scope : Scope
  /-- The parameters that arguments without a label come to next. -/
  next : List String
  /-- An argument had a label. -/
  labelled : Bool := false
  surplus : List Argument := []

/-- Binds a parameter of the given name to an argument. -/
def bindNamed (f : Function) (p : Progress) (x : String) (a : Argument) : Eval Progress :=
  if !f.fixed.contains x then Eval.fail (.noSuchParameter f.name x) a.loc
  else if p.scope.frame.has x then Eval.fail (.givenTwice x) a.loc
  else do return { p with scope := p.scope.define x (← a.reduce), labelled := true }

/-- Binds the next parameter to an argument without a label. -/
def bindNext (f : Function) (p : Progress) (a : Argument) : Eval Progress :=
  if p.labelled then Eval.fail .positionalAfterNamed a.loc
  else
    match p.next with
    | x :: rest => do return { p with scope := p.scope.define x (← a.reduce), next := rest }
    | [] =>
      if f.isVariadic then return { p with surplus := p.surplus ++ [a] }
      else Eval.fail (.tooManyArguments f.name) a.loc

/-- Binds an argument. -/
def bindArgument (f : Function) (p : Progress) (a : Argument) : Eval Progress :=
  match a.label with
  | some x => bindNamed f p x a
  | none => bindNext f p a

/-- Binds a parameter to its default, unless it is bound already. -/
def bindDefault (f : Function) (reduce : Scope → Expr → Eval Expr) (loc : Option Loc)
    (scope : Scope) (x : String) : Eval Scope :=
  if scope.frame.has x then return scope
  else
    match f.defaults.get? x with
    | none => Eval.fail (.notGiven f.name x) loc
    | some e => do return scope.define x (← reduce scope e)

/-- The scope with the surplus arguments bound, if the function takes any number of them. -/
def bindSurplus (f : Function) (loc : Option Loc) (surplus : List Argument) (scope : Scope) :
    Scope :=
  if f.isVariadic then scope.define surplusVariable (.array (surplus.map (·.source)) loc)
  else scope

/-- Calls a function from a scope; `reduce` evaluates defaults. -/
def bind (f : Function) (reduce : Scope → Expr → Eval Expr) (caller : Scope) (loc : Option Loc)
    (args : List Argument) : Eval Activation := do
  let bound ← args.foldlM (bindArgument f) { scope := caller.callee, next := f.fixed }
  let scope ← f.fixed.foldlM (bindDefault f reduce loc) bound.scope
  return { function := f, scope := bindSurplus f loc bound.surplus scope,
           surplus := bound.surplus, loc := loc }

/-! ## Parameters -/

/-- The value of a parameter. -/
def param (a : Activation) (x : String) : Eval Expr :=
  match a.scope.frame.get? x with
  | some v => return v
  | none => Eval.fail (.noValue x) a.loc

/-- The value of a parameter that is to be a text, with its place. -/
def string (a : Activation) (x : String) : Eval (String × Option Loc) := do
  match ← a.param x with
  | .string s loc => return (s, loc)
  | e => Eval.fail (.notAString x) (e.loc.or a.loc)

/-- The value of a parameter that is to be a number, with its place. -/
def integer (a : Activation) (x : String) : Eval (Int × Option Loc) := do
  match ← a.param x with
  | .integer n loc => return (n, loc)
  | e => Eval.fail (.notAnInteger x) (e.loc.or a.loc)

end Activation

end AchievementLang

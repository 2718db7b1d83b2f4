import AchievementLang.Relation

/-!
# Expressions

The tree of a script. Statements, named arguments and expressions share one type, since a
tree that did not come from the parser may hold any of them anywhere; what may stand where is
decided by evaluation.

Every node may carry the place in the script where it was written. `Expr.bare` forgets the
places: two trees say the same if their bare trees are equal.
-/

namespace AchievementLang

/-- A place in a script. Lines and columns count from one. -/
structure Loc where
  line : Nat
  column : Nat
  deriving DecidableEq, Repr

/-- The place after a text that starts at this one. Only a line feed ends a line. -/
def Loc.after (l : Loc) : List Char → Loc
  | [] => l
  | '\n' :: rest => Loc.after ⟨l.line + 1, 1⟩ rest
  | _ :: rest => Loc.after ⟨l.line, l.column + 1⟩ rest

/-- The operations of arithmetic. -/
inductive Operator
  | add | sub | mul | div | mod
  deriving DecidableEq, Repr

/-- The spelling in scripts. -/
def Operator.symbol : Operator → String
  | .add => "+"
  | .sub => "-"
  | .mul => "*"
  | .div => "/"
  | .mod => "%"

/-- The operation spelled so in scripts. -/
def Operator.ofSymbol? : String → Option Operator
  | "+" => some .add
  | "-" => some .sub
  | "*" => some .mul
  | "/" => some .div
  | "%" => some .mod
  | _ => none

/-- How conditions are joined. -/
inductive Connective
  | and | or
  deriving DecidableEq, Repr

/-- The spelling in scripts. -/
def Connective.symbol : Connective → String
  | .and => "&&"
  | .or => "||"

/-- The other connective. -/
def Connective.dual : Connective → Connective
  | .and => .or
  | .or => .and

@[simp] theorem Connective.dual_dual (c : Connective) : c.dual.dual = c := by
  cases c <;> rfl

/-- The name of the parameter that collects surplus arguments in a declaration. -/
def ellipsis : String := "..."

/-- A node of a script. -/
inductive Expr
  | string (value : String) (loc : Option Loc)
  | integer (value : Int) (loc : Option Loc)
  | var (name : String) (loc : Option Loc)
  | call (name : String) (args : List Expr) (loc : Option Loc)
  | compare (relation : Relation) (left right : Expr) (loc : Option Loc)
  | math (op : Operator) (left right : Expr) (loc : Option Loc)
  | not (operand : Expr) (loc : Option Loc)
  | logic (op : Connective) (operands : List Expr) (loc : Option Loc)
  | array (entries : List Expr) (loc : Option Loc)
  /-- A statement, or a named argument of a call. -/
  | assign (name : String) (value : Expr) (loc : Option Loc)
  | ret (value : Expr) (loc : Option Loc)
  /-- A parameter named `...`, if any, is to come last. -/
  | declare (name : String) (params : List String) (defaults : List (String × Expr))
      (body : List Expr) (loc : Option Loc)
  deriving Repr

namespace Expr

/-- Where the node was written. -/
def loc : Expr → Option Loc
  | .string _ l | .integer _ l | .var _ l | .call _ _ l | .compare _ _ _ l | .math _ _ _ l
  | .not _ l | .logic _ _ l | .array _ l | .assign _ _ l | .ret _ l | .declare _ _ _ _ l => l

/-- The word for the kind of node. -/
def kind : Expr → String
  | .string .. => "string"
  | .integer .. => "integer"
  | .var .. => "variable"
  | .call .. => "function_call"
  | .compare .. => "comparison"
  | .math .. => "mathematic"
  | .not .. | .logic .. => "conditional"
  | .array .. => "array"
  | .assign .. => "assignment"
  | .ret .. => "return"
  | .declare .. => "function_declaration"

/-- The value of an integer node. -/
def integer? : Expr → Option Int
  | .integer n _ => some n
  | _ => none

/-- The operands that a condition contributes to a node of the connective: its own, if it is
such a node itself. -/
def operandsOf (op : Connective) : Expr → List Expr
  | .logic op' es l => if op' = op then es else [.logic op' es l]
  | e => [e]

mutual

/-- The node without places. -/
def bare : Expr → Expr
  | .string s _ => .string s none
  | .integer n _ => .integer n none
  | .var x _ => .var x none
  | .call f args _ => .call f (bareAll args) none
  | .compare r a b _ => .compare r a.bare b.bare none
  | .math op a b _ => .math op a.bare b.bare none
  | .not a _ => .not a.bare none
  | .logic op es _ => .logic op (bareAll es) none
  | .array es _ => .array (bareAll es) none
  | .assign x e _ => .assign x e.bare none
  | .ret e _ => .ret e.bare none
  | .declare f params defaults body _ =>
    .declare f params (bareDefaults defaults) (bareAll body) none

/-- The nodes without places. -/
def bareAll : List Expr → List Expr
  | [] => []
  | e :: rest => e.bare :: bareAll rest

/-- The defaults of a declaration without places. -/
def bareDefaults : List (String × Expr) → List (String × Expr)
  | [] => []
  | (x, e) :: rest => (x, e.bare) :: bareDefaults rest

end

theorem bareAll_eq_map (es : List Expr) : bareAll es = es.map bare := by
  induction es with
  | nil => rfl
  | cons e rest ih => simp [bareAll, ih]

theorem bareAll_append (es es' : List Expr) : bareAll (es ++ es') = bareAll es ++ bareAll es' := by
  simp only [bareAll_eq_map, List.map_append]

theorem bareAll_operandsOf (op : Connective) (e : Expr) :
    bareAll (e.operandsOf op) = e.bare.operandsOf op := by
  cases e with
  | logic op' es l =>
    rw [operandsOf, bare, operandsOf]
    split <;> rfl
  | _ => rfl

end Expr

end AchievementLang

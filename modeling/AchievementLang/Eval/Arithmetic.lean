import AchievementLang.Error

/-!
# Arithmetic

Operations on reduced operands. Numbers are folded exactly, over the integers of any size;
texts can only be appended to; an operation on anything else stays as it is.
-/

namespace AchievementLang

/-- The quotient of two numbers: that of their magnitudes, negated if just one of them is
negative. -/
def quotient (a b : Int) : Int :=
  let magnitude : Int := (a.natAbs / b.natAbs : Nat)
  if decide (a < 0) != decide (b < 0) then -magnitude else magnitude

/-- An operation on numbers, none for a division by zero. Division truncates toward zero, and
the remainder has the sign of the dividend. -/
def Operator.apply? : Operator → Int → Int → Option Int
  | .add, a, b => some (a + b)
  | .sub, a, b => some (a - b)
  | .mul, a, b => some (a * b)
  | .div, a, b => if b = 0 then none else some (quotient a b)
  | .mod, a, b => if b = 0 then none else some (a - b * quotient a b)

namespace Expr

/-- The text that a reduced node contributes when it is appended. -/
def appendable? : Expr → Option String
  | .string s _ => some s
  | .integer n _ => some (toString n)
  | _ => none

/-- The node is a text. -/
def isString : Expr → Bool
  | .string .. => true
  | _ => false

/-- An operation on reduced operands that are not both numbers. -/
def combineOthers (op : Operator) (a b : Expr) (loc : Option Loc) : Except Fault Expr :=
  if a.isString || b.isString then
    match op, a.appendable?, b.appendable? with
    | .add, some s, some t => .ok (.string (s ++ t) loc)
    | .add, _, _ => .error ⟨.cannotAppend, loc⟩
    | op, _, _ => .error ⟨.notForStrings op, loc⟩
  else .ok (.math op a b loc)

/-- An operation on reduced operands. -/
def combine (op : Operator) (a b : Expr) (loc : Option Loc) : Except Fault Expr :=
  match a.integer?, b.integer? with
  | some m, some n =>
    match op.apply? m n with
    | some value => .ok (.integer value loc)
    | none => .error ⟨.divisionByZero, loc⟩
  | _, _ => combineOthers op a b loc

end Expr

end AchievementLang

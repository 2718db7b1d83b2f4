import AchievementLang.Compile.Operand
import AchievementLang.Wire.Value

/-!
# Leaderboard values

A value is a sum of operands with exact multipliers. Its constants are added up into one term
at the end, which is left out if it is zero and not alone.
-/

namespace AchievementLang.Compile

/-- A part of a sum: an operand times a multiplier, or a number. -/
structure Part where
  field : Option Wire.Field
  multiplier : Rat

/-- The parts of two sums, one after the other. -/
def appendParts (left right : Except Failure (List Part)) : Except Failure (List Part) :=
  match left with
  | .error f => .error f
  | .ok ps =>
    match right with
    | .error f => .error f
    | .ok qs => .ok (ps ++ qs)

/-- The parts of a value that is itself multiplied. -/
def parts (functions : FunctionTable) (multiplier : Rat) : Expr → Except Failure (List Part)
  | .integer n _ => .ok [⟨none, multiplier * n⟩]
  | .math .add a b _ =>
    appendParts (parts functions multiplier a) (parts functions multiplier b)
  | .math .sub a b _ =>
    appendParts (parts functions multiplier a) (parts functions (-multiplier) b)
  | .math .mul a b loc =>
    match a, b with
    | a, .integer n _ => parts functions (multiplier * n) a
    | .integer n _, b => parts functions (multiplier * n) b
    | _, _ => .error (.at? .notByConstant loc)
  | .math .div a b loc =>
    match b with
    | .integer n _ =>
      if n ≠ 0 then parts functions (multiplier / n) a
      else .error (.at? (.notInValues .div) loc)
    | _ => .error (.at? (.notInValues .div) loc)
  | .math .mod _ _ loc => .error (.at? (.notInValues .mod) loc)
  | .call name args loc =>
    if denotesOperand functions name then
      (callField functions (.call name args loc)).map fun f => [⟨some f, multiplier⟩]
    else .error (.at? (.notAValue name) loc)
  | .logic .or _ loc => .error (.at? .orInValue loc)
  | .logic .and es loc => .error (.at? (.conditionAsValue (.logic .and es loc)) loc)
  | .not e loc => .error (.at? (.conditionAsValue (.not e loc)) loc)
  | .compare r a b loc => .error (.at? (.conditionAsValue (.compare r a b loc)) loc)
  | e => .error (.at? (.notAValueExpr e) e.loc)

/-- The term of a part that is not a number. -/
def Part.term? (p : Part) : Option Wire.Term := p.field.map fun f => ⟨some f, p.multiplier⟩

/-- The sum of the numbers among parts. -/
def constantPart (ps : List Part) : Rat :=
  ps.foldl (fun sum p => if p.field.isNone then sum + p.multiplier else sum) 0

/-- The terms of a sum. -/
def termsOf (ps : List Part) : Wire.Sum :=
  let terms := ps.filterMap Part.term?
  if constantPart ps ≠ 0 ∨ terms = [] then terms ++ [.constant (constantPart ps)] else terms

/-- The terms of a value. -/
def valueTerms (functions : FunctionTable) (e : Expr) : Except Failure Wire.Sum :=
  (parts functions 1 e).map termsOf

/-- The value on the wire. -/
def valueText (functions : FunctionTable) (e : Expr) : Except Failure String :=
  match valueTerms functions e with
  | .error f => .error f
  | .ok terms =>
    match Wire.Sum.wire? terms with
    | some text => .ok text
    | none => .error (.breakdown .tooLarge)

end AchievementLang.Compile

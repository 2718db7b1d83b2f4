import AchievementLang.Compile.Operand
import AchievementLang.Wire.Trigger

/-!
# Comparisons

A comparison becomes one row for each operand on its left side: operands that are subtracted
and all but one of those added are accumulated, and the last row compares. Constants on the
left move to the right, which must then be a constant too.
-/

namespace AchievementLang.Compile

/-- The row of a condition that always or never holds. -/
def constantRow (holds : Bool) : Wire.Requirement :=
  { left := .literal (.ofBool holds), operator := some .eq, right := .literal (.ofBool true) }

/-- A summand: what is added, or subtracted. -/
structure Summand where
  added : Bool
  expr : Expr

/-- The summands of a side of a comparison; `added` tells how the side itself counts. -/
def summands (added : Bool) : Expr → Except Failure (List Summand)
  | .math .add a b _ =>
    match summands added a with
    | .error f => .error f
    | .ok left =>
      match summands added b with
      | .error f => .error f
      | .ok right => .ok (left ++ right)
  | .math .sub a b _ =>
    match summands added a with
    | .error f => .error f
    | .ok left =>
      match summands (!added) b with
      | .error f => .error f
      | .ok right => .ok (left ++ right)
  | .math op _ _ loc => .error (.at? (.onlyInValues op) loc)
  | e => .ok [⟨added, e⟩]

/-- The number that a summand contributes to the constant of a side. -/
def Summand.constant (s : Summand) : Int :=
  match s.expr with
  | .integer n _ => if s.added then n else -n
  | _ => 0

/-- The summand is not a number. -/
def Summand.isOperand (s : Summand) : Bool := s.expr.integer?.isNone

/-- The sum of the constants of a side. -/
def constantOf (ss : List Summand) : Int := ss.foldr (fun s sum => s.constant + sum) 0

/-- The operands of a side that count as given. -/
def operandsOf (added : Bool) (ss : List Summand) : List Expr :=
  (ss.filter fun s => s.isOperand && s.added == added).map (·.expr)

/-- The rows of a comparison of the operands with a field. The last of the added operands
stands in the comparing row. -/
def comparingRows (op : Relation) (added subtracted : List Wire.Field) (right : Wire.Field) :
    Option Wire.Group :=
  match added.getLast? with
  | none => none
  | some last =>
    some (subtracted.map (fun f => { left := f, flag := .subSource }) ++
      added.dropLast.map (fun f => { left := f, flag := .addSource }) ++
      [{ left := last, operator := some op, right := right }])

/-- The rows of a comparison whose right side has become a field. -/
def sumRows (functions : FunctionTable) (op : Relation) (ss : List Summand)
    (right : Wire.Field) (loc : Option Loc) : Except Failure Wire.Group :=
  if (operandsOf true ss).isEmpty then .error (.at? .nothingAdded loc)
  else
    match operandFields functions (operandsOf false ss) with
    | .error f => .error f
    | .ok subtracted =>
      match operandFields functions (operandsOf true ss) with
      | .error f => .error f
      | .ok added =>
        match comparingRows op added subtracted right with
        | some rows => .ok rows
        | none => .error (.at? .nothingAdded loc)

/-- The rows of a comparison whose constant sides have been ordered. -/
def orderedRows (functions : FunctionTable) (op : Relation) (left right : Expr)
    (loc : Option Loc) : Except Failure Wire.Group :=
  match summands true left with
  | .error f => .error f
  | .ok ss =>
    match right with
    | .integer n rightLoc =>
      let limit := n - constantOf ss
      if ss.all (!·.isOperand) then .ok [constantRow (op.holds 0 limit)]
      else if limit < 0 then .error (.at? (.negativeLimit limit) loc)
      else
        match operandField functions (.integer limit rightLoc) with
        | .error f => .error f
        | .ok field => sumRows functions op ss field loc
    | _ =>
      if constantOf ss ≠ 0 then .error (.at? .constantsOnLeft loc)
      else
        match operandField functions right with
        | .error f => .error f
        | .ok field => sumRows functions op ss field loc

/-- The rows of a comparison. A number on the left changes sides with what is on the right. -/
def comparisonRows (functions : FunctionTable) (op : Relation) (left right : Expr)
    (loc : Option Loc) : Except Failure Wire.Group :=
  if left.integer?.isSome && right.integer?.isNone then
    orderedRows functions op.mirrored right left loc
  else orderedRows functions op left right loc

end AchievementLang.Compile

import AchievementLang.Compile.Comparison
import AchievementLang.Compile.Normal

/-!
# Conditions

The rows of a condition. Only conjunctions can be written as a group of rows; negations are
pushed down to the comparisons on the way. `conditionRows functions negated e` are the rows of
the normal form of `e`, or of its negation.
-/

namespace AchievementLang.Compile

/-- How a condition function changes the last row of its argument. -/
def modifyRow (f : Function) (args : List Expr) (row : Wire.Requirement) :
    Except Failure Wire.Requirement :=
  match f with
  | .once => .ok { row with hits := 1 }
  | .repeated =>
    match args with
    | .integer n _ :: _ => .ok { row with hits := n.toNat }
    | _ => .error (.breakdown .staleCall)
  | .never => .ok { row with flag := .resetIf }
  | .pausing => .ok { row with flag := .pauseIf }
  | _ => .ok row

/-- The rows with the last one changed by a condition function. The rows must make a single
condition, accumulated operands aside. -/
def modifyRows (f : Function) (args : List Expr) (rows : Wire.Group) (loc : Option Loc) :
    Except Failure Wire.Group :=
  if (rows.filter fun r => !r.flag.isAccumulator).length ≠ 1 then
    .error (.at? (.notSingle f.name) loc)
  else
    match rows.getLast? with
    | none => .error (.at? (.notSingle f.name) loc)
    | some last =>
      match modifyRow f args last with
      | .error e => .error e
      | .ok changed => .ok (rows.dropLast ++ [changed])

/-- The row of a call of a condition without arguments; its name may have been redefined. -/
def constantCallRows (functions : FunctionTable) (name : String) (loc : Option Loc) :
    Except Failure Wire.Group :=
  match functions.get? name with
  | some (.constant holds) => .ok [constantRow holds]
  | _ => .error (.at? (.notACondition name) loc)

mutual

/-- The rows of a condition, or of its negation. -/
def conditionRows (functions : FunctionTable) (negated : Bool) :
    Expr → Except Failure Wire.Group
  | .not e _ => conditionRows functions (!negated) e
  | .logic op es loc =>
    match polarized negated op with
    | .and => conjunctionRows functions negated es
    | .or => .error (.at? .orInCondition loc)
  | .compare r a b loc =>
    comparisonRows functions (if negated then r.opposite else r) a b loc
  | .call name args loc =>
    if negated then
      match oppositeName? functions name with
      | some opposite => constantCallRows functions opposite loc
      | none => .error (.at? (.cannotNegate (.call name args loc)) loc)
    else
      match functions.get? name with
      | some (.constant holds) => .ok [constantRow holds]
      | some f =>
        if f.isCondition then
          match lastRows functions args with
          | .error e => .error e
          | .ok (rows, argLoc) => modifyRows f args rows argLoc
        else .error (.at? (.notACondition name) loc)
      | none => .error (.at? (.notACondition name) loc)
  | e =>
    if negated then .error (.at? (.cannotNegate e) e.loc)
    else .error (.at? (.notAConditionExpr e) e.loc)

/-- The rows of conditions one after the other, or of their negations. -/
def conjunctionRows (functions : FunctionTable) (negated : Bool) :
    List Expr → Except Failure Wire.Group
  | [] => .ok []
  | e :: rest =>
    match conditionRows functions negated e with
    | .error f => .error f
    | .ok rows =>
      match conjunctionRows functions negated rest with
      | .error f => .error f
      | .ok more => .ok (rows ++ more)

/-- The rows of the last argument, and its place. -/
def lastRows (functions : FunctionTable) :
    List Expr → Except Failure (Wire.Group × Option Loc)
  | [] => .error (.breakdown .staleCall)
  | [e] =>
    match conditionRows functions false e with
    | .error f => .error f
    | .ok rows => .ok (rows, e.loc)
  | _ :: e :: rest => lastRows functions (e :: rest)

end

/-- The condition on the wire. -/
def conditionText (functions : FunctionTable) (e : Expr) : Except Failure String :=
  (conditionRows functions false e).map Wire.Group.wire

end AchievementLang.Compile

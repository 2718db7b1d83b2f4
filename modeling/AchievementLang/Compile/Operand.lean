import AchievementLang.Error
import AchievementLang.Function

/-!
# Operands

The fields that reduced calls denote. A call denotes a field if its name still denotes a
memory accessor or `prev` when it is compiled; a script may have redefined the name since the
call was reduced.
-/

namespace AchievementLang.Compile

/-- The memory at an address that a reduced call carries. -/
def memoryAt (size : Wire.Size) : Expr → Except Failure Wire.Field
  | .integer n _ =>
    match Wire.Word.ofInt? n with
    | some address => .ok (.memory size address)
    | none => .error (.breakdown (.fieldRange n))
  | _ => .error (.breakdown .staleCall)

/-- The field in the frame before. -/
def previousOf (f : Wire.Field) : Wire.Field := { f with kind := .previous }

/-- The field that a call of an accessor or of `prev` denotes. -/
def callField (functions : FunctionTable) : Expr → Except Failure Wire.Field
  | .call name (arg :: _) _ =>
    match functions.get? name with
    | some (.accessor size) => memoryAt size arg
    | some .prev => (callField functions arg).map previousOf
    | _ => .error (.breakdown .staleCall)
  | _ => .error (.breakdown .staleCall)

/-- The call's name denotes an accessor or `prev`. -/
def denotesOperand (functions : FunctionTable) (name : String) : Bool :=
  match functions.get? name with
  | some f => f.isOperand
  | none => false

/-- The field for an operand of a comparison. -/
def operandField (functions : FunctionTable) (e : Expr) : Except Failure Wire.Field :=
  match e with
  | .integer n loc =>
    match Wire.Word.ofInt? n with
    | some w => .ok (.literal w)
    | none => .error (.at? (.literalRange n) loc)
  | .call name _ loc =>
    if denotesOperand functions name then callField functions e
    else .error (.at? (.notAnOperand e) loc)
  | _ => .error (.at? (.notAnOperand e) e.loc)

/-- The fields for several operands, in order. -/
def operandFields (functions : FunctionTable) :
    List Expr → Except Failure (List Wire.Field)
  | [] => .ok []
  | e :: rest =>
    match operandField functions e with
    | .error f => .error f
    | .ok field =>
      match operandFields functions rest with
      | .error f => .error f
      | .ok fields => .ok (field :: fields)

end AchievementLang.Compile

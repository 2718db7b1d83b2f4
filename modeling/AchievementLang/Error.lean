import AchievementLang.Expr.Printer
import AchievementLang.Text.Quoted
import AchievementLang.Wire.Reading

/-!
# Errors

What can be wrong with a script, as causes with the place they concern. Kind, wording and hint
follow from the cause (`Cause.kind`, `Cause.message`, `Cause.hint?`); a `Diagnostic` holds
them in the form in which they are reported.

A run can also break down on something that is not reported as an error of the script
(`Breakdown`); `Failure` is the sum of all these.
-/

namespace AchievementLang

/-- The kinds of reported errors. -/
inductive ErrorKind
  /-- The script does not parse. -/
  | malformedScript
  /-- An operation that has no result. -/
  | impossible
  | unknownFunction
  /-- Arguments that do not fit the parameters. -/
  | badCall
  /-- An expression of the wrong kind. -/
  | mismatch
  | unknownFormat
  /-- An alternative where only a conjunction is permitted. -/
  | misplacedOr
  | unknownVariable
  /-- Calls nest too deeply. -/
  | tooDeep
  /-- A text on the wire cannot be read. -/
  | malformedWire
  /-- Any other, with a code of its own. -/
  | other (code : String)
  deriving DecidableEq, Repr

namespace ErrorKind

/-- The code of the kind. -/
def code : ErrorKind → String
  | malformedScript => "E001"
  | impossible => "E100"
  | unknownFunction => "E101"
  | badCall => "E102"
  | mismatch => "E103"
  | unknownFormat => "E104"
  | misplacedOr => "E105"
  | unknownVariable => "E106"
  | tooDeep => "E107"
  | malformedWire => "E200"
  | other code => code

/-- The error arises when a script that parses is compiled. -/
def isCompileError : ErrorKind → Bool
  | malformedScript | malformedWire | other _ => false
  | _ => true

end ErrorKind

/-- A reported error. -/
structure Diagnostic where
  kind : ErrorKind
  message : String
  /-- Line and column. -/
  place : Option (Int × Int) := none
  hint : Option String := none
  /-- For texts on the wire, the number of characters before the error. -/
  position : Option Int := none
  deriving DecidableEq, Repr

namespace Diagnostic

/-- The diagnostic of a text on the wire, all of which is on one line. -/
def ofWire (message : String) (position : Option Int) (hint : Option String) : Diagnostic :=
  { kind := .malformedWire, message := message, hint := hint, position := position,
    place := position.map fun p => (1, p + 1) }

/-- Code and message. -/
def label (d : Diagnostic) : String := "[" ++ d.kind.code ++ "] " ++ d.message

/-- Code and message, with the place in front if it is known. -/
def describe (d : Diagnostic) : String :=
  match d.place with
  | none => d.label
  | some (line, column) => toString line ++ ":" ++ toString column ++ " " ++ d.label

end Diagnostic

/-- What is wrong with a script. -/
inductive Cause
  -- parsing
  | unexpectedToken (text : String) (expected : List String)
  | unexpectedCharacter (c : Char)
  | unexpectedEnd
  | ellipsisNotLastIn (function : String)
  -- calls
  | unknownFunction (name : String)
  | callDepth (limit : Int) (function : String)
  | noSuchParameter (function name : String)
  | givenTwice (name : String)
  | positionalAfterNamed
  | tooManyArguments (function : String)
  | notGiven (function name : String)
  | noValue (name : String)
  | ellipsisNotLast
  | nothingToCompare
  -- evaluation
  | divisionByZero
  | unknownVariable (name : String)
  | noReturnValue (function : String)
  | notAnExpression (kind : String)
  | notAStatement
  | topLevelReturn
  | cannotAppend
  | notForStrings (op : Operator)
  -- arguments of the functions of the language
  | notAString (parameter : String)
  | notAnInteger (parameter : String)
  | addressRange (address : Int)
  | bitIndexRange
  | notAnAccessor
  | countRange
  | pointsRange
  | unknownFormat (text : String)
  -- conditions
  | cannotNegate (e : Expr)
  | notACondition (function : String)
  | notAConditionExpr (e : Expr)
  | notSingle (function : String)
  | negativeLimit (limit : Int)
  | constantsOnLeft
  | nothingAdded
  | onlyInValues (op : Operator)
  | literalRange (value : Int)
  | notAnOperand (e : Expr)
  | secondOr
  | orInCondition
  -- values
  | orInValue
  | notByConstant
  | notInValues (op : Operator)
  | notAValue (function : String)
  | conditionAsValue (e : Expr)
  | notAValueExpr (e : Expr)

namespace Cause

/-- The kind of error. -/
def kind : Cause → ErrorKind
  | unexpectedToken .. | unexpectedCharacter .. | unexpectedEnd | ellipsisNotLastIn .. =>
    .malformedScript
  | unknownFunction .. => .unknownFunction
  | callDepth .. => .tooDeep
  | noSuchParameter .. | givenTwice .. | positionalAfterNamed | tooManyArguments .. | notGiven ..
  | noValue .. | ellipsisNotLast | nothingToCompare => .badCall
  | divisionByZero => .impossible
  | unknownVariable .. => .unknownVariable
  | unknownFormat .. => .unknownFormat
  | secondOr | orInCondition | orInValue => .misplacedOr
  | noReturnValue .. | notAnExpression .. | notAStatement | topLevelReturn | cannotAppend
  | notForStrings .. | notAString .. | notAnInteger .. | addressRange .. | bitIndexRange
  | notAnAccessor | countRange | pointsRange | cannotNegate .. | notACondition ..
  | notAConditionExpr .. | notSingle .. | negativeLimit .. | constantsOnLeft | nothingAdded
  | onlyInValues .. | literalRange .. | notAnOperand .. | notByConstant | notInValues ..
  | notAValue .. | conditionAsValue .. | notAValueExpr .. => .mismatch

/-- The cause in words. -/
def message : Cause → String
  | unexpectedToken text _ => s!"Unexpected '{text}'"
  | unexpectedCharacter c => s!"Unexpected character '{c}'"
  | unexpectedEnd => "Unexpected end of script"
  | ellipsisNotLastIn f => s!"'...' must be the last parameter of {f}"
  | unknownFunction f => s!"Unknown function: {f}"
  | callDepth limit f => s!"Maximum call depth ({limit}) exceeded calling {f}"
  | noSuchParameter f x => s!"{f} does not have a {x} parameter"
  | givenTwice x => s!"{x} specified more than once"
  | positionalAfterNamed => "Positional argument follows named argument"
  | tooManyArguments f => s!"Too many parameters passed to {f}"
  | notGiven f x => s!"Required parameter '{x}' not provided to {f}"
  | noValue x => s!"No value provided for {x} parameter"
  | ellipsisNotLast => "'...' must be the last parameter"
  | nothingToCompare => "max_of requires at least one value"
  | divisionByZero => "Division by zero"
  | unknownVariable x => s!"Unknown variable: {x}"
  | noReturnValue f => s!"{f} did not return a value"
  | notAnExpression kind => s!"{kind} is not an expression"
  | notAStatement =>
    "Only assignments, function declarations and calls are allowed as statements"
  | topLevelReturn => "return is only allowed inside a function"
  | cannotAppend => "Only strings and integers can be appended to a string"
  | notForStrings op => s!"Cannot apply '{op.symbol}' to a string"
  | notAString x => s!"{x} is not a string"
  | notAnInteger x => s!"{x} is not an integer"
  | addressRange n => s!"Address {n} is outside the 32-bit range"
  | bitIndexRange => "index must be between 0 and 7"
  | notAnAccessor => "accessor did not evaluate to a memory accessor"
  | countRange => "count must be greater than zero"
  | pointsRange => "points must be zero or greater"
  | unknownFormat text => s!"{text} is not a supported leaderboard format"
  | cannotNegate e => s!"! cannot be applied to {e.text}"
  | notACondition f => s!"{f} is not a condition"
  | notAConditionExpr e => s!"Expression is not a condition: {e.text}"
  | notSingle f => s!"{f} requires a single condition"
  | negativeLimit n => s!"Comparison against negative value {n}"
  | constantsOnLeft => "Constants on the left side require a constant right side"
  | nothingAdded => "Comparison requires at least one added memory reference"
  | onlyInValues op => s!"'{op.symbol}' is only supported in value expressions"
  | literalRange n => s!"{n} is outside the 32-bit unsigned range"
  | notAnOperand e => s!"{e.text} is not a memory reference or constant"
  | secondOr => "Only one || clause is allowed at the top level of an achievement"
  | orInCondition => "|| is not allowed here; only && may combine these conditions"
  | orInValue => "|| is not allowed in a value expression"
  | notByConstant => "Values can only be multiplied by constants"
  | notInValues op => s!"'{op.symbol}' is not supported in value expressions"
  | notAValue f => s!"{f} is not a value"
  | conditionAsValue e => s!"Condition used where a value was expected: {e.text}"
  | notAValueExpr e => s!"Expression is not a value: {e.text}"

/-- What to do about it, where there is something to say. -/
def hint? : Cause → Option String
  | unexpectedToken _ expected => some ("Expected one of: " ++ ", ".intercalate expected)
  | secondOr => some "Combine the alternatives into a single || expression"
  | _ => none

end Cause

/-- An error of a script: what is wrong, and where. -/
structure Fault where
  cause : Cause
  loc : Option Loc

/-- The error as it is reported. -/
def Fault.diagnostic (f : Fault) : Diagnostic where
  kind := f.cause.kind
  message := f.cause.message
  place := f.loc.map fun l => ((l.line : Int), (l.column : Int))
  hint := f.cause.hint?

/-- The error as it is reported. -/
def Wire.ReadError.diagnostic (e : Wire.ReadError) : Diagnostic :=
  .ofWire e.flaw.message (some (e.position : Int)) none

/-- What breaks a run down without being an error of the script. -/
inductive Breakdown
  /-- A field is to hold a number of more than 32 bits, or a negative one. -/
  | fieldRange (n : Int)
  /-- A text is to be read as an integer and is none. -/
  | notAnInteger (text : String)
  /-- A multiplier is too large to be written. -/
  | tooLarge
  /-- A reduced call whose name no longer denotes the function that reduced it. -/
  | staleCall
  /-- There is no registry to put an achievement or leaderboard in. -/
  | noRegistry
  /-- Evaluation starts over from the global scope without end. -/
  | endless
  deriving DecidableEq, Repr

/-- What is told about a breakdown. -/
def Breakdown.message : Breakdown → String
  | fieldRange n => s!"not a number of 32 bits: {n}"
  | notAnInteger text => "not an integer: " ++ Text.quoted text
  | tooLarge => "a multiplier is too large to be written"
  | staleCall => "a call does not denote a memory reference any more"
  | noRegistry => "nothing can be declared here"
  | endless => "evaluation starts over without end"

/-- Why there is no result. -/
inductive Failure
  | fault (f : Fault)
  | malformed (e : Wire.ReadError)
  | breakdown (b : Breakdown)

namespace Failure

/-- The failure for a cause at a place. -/
def at? (cause : Cause) (loc : Option Loc) : Failure := .fault ⟨cause, loc⟩

/-- The failure to read a text on the wire. -/
def ofReading : Wire.ReadFailure → Failure
  | .malformed e => .malformed e
  | .valueless digits => .breakdown (.notAnInteger digits)

/-- The reported error, unless the run broke down. -/
def diagnostic? : Failure → Option Diagnostic
  | .fault f => some f.diagnostic
  | .malformed e => some e.diagnostic
  | .breakdown _ => none

end Failure

end AchievementLang

import AchievementLang.Bindings
import AchievementLang.Compilation
import AchievementLang.Text.Case
import AchievementLang.Text.IntLiteral
import AchievementLang.Text.Quoted
import AchievementLang.Wire.Requirement

/-!
# Settings

What can be set from the environment. Reading fails only on a depth that is no integer; whether
the settings make sense is a matter of its own (`Settings.problem?`).
-/

namespace AchievementLang

/-- How much is told about a run, from everything to the gravest only. -/
inductive LogLevel
  | debug | info | warning | error | critical
  deriving DecidableEq, Repr

namespace LogLevel

/-- Every level. -/
def all : List LogLevel := [debug, info, warning, error, critical]

/-- The name of the level. -/
def name : LogLevel → String
  | debug => "DEBUG"
  | info => "INFO"
  | warning => "WARNING"
  | error => "ERROR"
  | critical => "CRITICAL"

/-- The level with a name. -/
def ofName? (s : String) : Option LogLevel := all.find? (·.name == s)

/-- How grave the level is. -/
def rank : LogLevel → Nat
  | debug => 0
  | info => 1
  | warning => 2
  | error => 3
  | critical => 4

end LogLevel

namespace Wire.NumberFormat

/-- Every format. -/
def all : List NumberFormat := [decimal, hexadecimal]

/-- The name of the format in settings. -/
def name : NumberFormat → String
  | decimal => "decimal"
  | hexadecimal => "hex"

/-- The format with a name. -/
def ofName? (s : String) : Option NumberFormat := all.find? (·.name == s)

end Wire.NumberFormat

/-- Settings as they are given. -/
structure Settings where
  /-- The greatest depth of calls. -/
  callDepth : Int := defaultCallDepth
  numberFormat : String := Wire.NumberFormat.decimal.name
  logLevel : String := LogLevel.warning.name
  deriving DecidableEq, Repr

namespace Settings

/-- Settings that make no sense. -/
inductive Problem
  | callDepth (n : Int)
  | numberFormat (text : String)
  | logLevel (text : String)
  deriving DecidableEq, Repr

/-- What is wrong with the settings. -/
def Problem.message : Problem → String
  | callDepth n => s!"max_call_depth must be >= 1, got {n}"
  | numberFormat text =>
    "number_format must be one of " ++ ", ".intercalate (Wire.NumberFormat.all.map (·.name)) ++
      ", got " ++ Text.quoted text
  | logLevel text =>
    "log_level must be one of " ++ ", ".intercalate (LogLevel.all.map (·.name)) ++
      ", got " ++ Text.quoted text

/-- The settings of an environment, or the text that is no integer. -/
def read (env : Bindings String) : Except String Settings :=
  let format := (env.get? "RASCRIPT_NUMBER_FORMAT").map Text.lower
  let level := (env.get? "RASCRIPT_LOG_LEVEL").map Text.upper
  let withDepth (depth : Int) : Settings :=
    { callDepth := depth
      numberFormat := format.getD Wire.NumberFormat.decimal.name
      logLevel := level.getD LogLevel.warning.name }
  match env.get? "RASCRIPT_MAX_CALL_DEPTH" with
  | none => .ok (withDepth defaultCallDepth)
  | some text =>
    match Text.readInt? text with
    | some n => .ok (withDepth n)
    | none => .error text

/-- The first problem of the settings. -/
def problem? (s : Settings) : Option Problem :=
  if s.callDepth < 1 then some (.callDepth s.callDepth)
  else if (Wire.NumberFormat.ofName? s.numberFormat).isNone then
    some (.numberFormat s.numberFormat)
  else if (LogLevel.ofName? s.logLevel).isNone then some (.logLevel s.logLevel)
  else none

/-- The settings over several lines. -/
def summary (s : Settings) : String :=
  "\n".intercalate
    ["RAScript Configuration Summary", "".pushn '=' 50, "",
     s!"  Max Call Depth: {s.callDepth}", s!"  Number Format: {s.numberFormat}",
     s!"  Log Level: {s.logLevel}"]

/-- How literals are shown. -/
def format (s : Settings) : Wire.NumberFormat :=
  (Wire.NumberFormat.ofName? s.numberFormat).getD .decimal

/-- The level from which on something is told. -/
def level (s : Settings) : LogLevel := (LogLevel.ofName? s.logLevel).getD .warning

end Settings

end AchievementLang

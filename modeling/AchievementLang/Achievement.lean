import AchievementLang.Text.Blank
import AchievementLang.Text.Case
import AchievementLang.Wire.Leaderboard

/-!
# Achievements and leaderboards

What a script declares and a document holds.
-/

namespace AchievementLang

/-- How the runtime shows the value of a leaderboard. -/
inductive ValueFormat
  | value | score | frames | secs | millisecs | minutes | other
  deriving DecidableEq, Repr

namespace ValueFormat

/-- The name of the format. -/
def name : ValueFormat → String
  | value => "VALUE"
  | score => "SCORE"
  | frames => "FRAMES"
  | secs => "SECS"
  | millisecs => "MILLISECS"
  | minutes => "MINUTES"
  | other => "OTHER"

/-- The format with a name, or with one of the names that scripts may use beside it. -/
def ofName? : String → Option ValueFormat
  | "VALUE" => some value
  | "SCORE" | "POINTS" => some score
  | "FRAMES" | "TIME" => some frames
  | "SECS" | "TIMESECS" => some secs
  | "MILLISECS" | "TIMEMILLISECS" => some millisecs
  | "MINUTES" => some minutes
  | "OTHER" => some other
  | _ => none

/-- The format that a text names, in any case and with blanks around it. -/
def ofText? (s : String) : Option ValueFormat :=
  ofName? (Text.upper (String.ofList (Text.trim s.toList)))

end ValueFormat

/-- A goal that earns points. -/
structure Achievement where
  title : String := ""
  description : String := ""
  points : Int := 0
  /-- Zero if none has been given. -/
  id : Int := 0
  trigger : Wire.Trigger := {}
  /-- The line of the script that declares it. -/
  sourceLine : Option Int := none
  deriving DecidableEq, Repr

/-- A ranking by a value of the game. -/
structure Leaderboard where
  title : String := ""
  description : String := ""
  definition : Wire.Definition := {}
  format : ValueFormat := .value
  /-- The line of the script that declares it. -/
  sourceLine : Option Int := none
  deriving DecidableEq, Repr

end AchievementLang

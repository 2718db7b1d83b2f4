import AchievementLang.Compilation
import AchievementLang.Json.Display
import AchievementLang.Text.Blank

/-!
# Golden cases

Scripts with what they are expected to declare, or the code of the error that they are to fail
with. `Case.mismatches` compares one; `run` reports on several.
-/

namespace AchievementLang.Golden

/-- What a case expects; what is missing is not compared. -/
structure Expectation where
  /-- The code of an error. -/
  error : Option Json := none
  /-- The triggers of the achievements. -/
  achievements : Option Json := none
  /-- The definitions of the leaderboards. -/
  leaderboards : Option Json := none

/-- A script with what is expected of it. -/
structure Case where
  name : String := "<unnamed>"
  script : String := ""
  expected : Expectation := {}

/-- The value of a key, where null counts as missing. -/
def given? (j : Json) (key : String) : Option Json :=
  match j.get? key with
  | some .null => none
  | other => other

/-- The text of a key, empty if it holds none. -/
def textOf (j : Json) (key : String) : String :=
  match j.get? key with
  | some (.string s) => s
  | _ => ""

/-- The case that a document describes. -/
def Case.ofJson (j : Json) : Case :=
  let expected := (j.get? "expect").getD .null
  { name := ((j.get? "name").map Json.display).getD "<unnamed>"
    script := textOf j "script"
    expected :=
      { error := given? expected "error"
        achievements := expected.get? "achievements"
        leaderboards := expected.get? "leaderboards" } }

/-- The texts of a list that holds nothing else. -/
def texts? : Json → Option (List String)
  | .array items => items.mapM fun
    | .string s => some s
    | _ => none
  | _ => none

/-- The difference between what was declared and what was expected, if there is any. -/
def difference? (label : String) (actual : List String) (expected : Option Json) :
    Option String :=
  match expected with
  | none => none
  | some j =>
    if texts? j = some actual then none
    else some (label ++ " " ++ Text.quotedList actual ++ " != " ++ j.display)

/-- How a failure differs from an expected code. -/
def codeMismatches (code : Json) (d : Diagnostic) : List String :=
  if textIs code d.kind.code then [] else [s!"error {d.describe} != {code.display}"]
where
  /-- The value is the text. -/
  textIs (j : Json) (s : String) : Bool :=
    match j with
    | .string t => t == s
    | _ => false

/-- Everything that differs from what a case expects; a breakdown of the run is passed on. -/
def Case.mismatches (c : Case) : Except Breakdown (List String) :=
  match c.expected.error, Script.compileText defaultCallDepth c.script with
  | _, .error (.breakdown b) => .error b
  | some code, .ok _ => .ok [s!"expected {code.display}, compiled successfully"]
  | some code, .error f => .ok ((f.diagnostic?.map (codeMismatches code)).getD [])
  | none, .error f =>
    .ok (f.diagnostic?.map fun d => "unexpected error " ++ d.describe).toList
  | none, .ok result =>
    .ok ((difference? "achievements" (result.achievements.map (·.trigger.wire))
        c.expected.achievements).toList ++
      (difference? "leaderboards" (result.leaderboards.map (·.definition.wire))
        c.expected.leaderboards).toList)

/-! ## Reports -/

/-- The colours of a report. -/
inductive Colour
  | red | green | yellow | cyan

/-- The number of the colour on terminals. -/
def Colour.number : Colour → String
  | red => "31"
  | green => "32"
  | yellow => "33"
  | cyan => "36"

/-- A text in a colour. -/
def Colour.paint (c : Colour) (s : String) : String :=
  "\x1b[" ++ c.number ++ "m" ++ s ++ "\x1b[0m"

/-- A report on several cases. -/
structure Report where
  total : Nat := 0
  failures : Nat := 0
  lines : List String := []
  /-- The report ends here, without a summary. -/
  stopped : Bool := false

/-- What is told about a case before its result. -/
def Case.heading (c : Case) : String :=
  Colour.cyan.paint ("[CASE] " ++ c.name) ++ " " ++ String.ofList (Text.trim c.script.toList)

/-- What is told about the result of a case. -/
def Case.resultLines (c : Case) (mismatches : List String) : List String :=
  if mismatches.isEmpty then [Colour.green.paint ("[OK]   " ++ c.name)]
  else Colour.red.paint ("[FAIL] " ++ c.name) :: mismatches.map ("       - " ++ ·)

/-- The report after one more case. -/
def Report.add (verbose stopOnFail : Bool) (r : Report) (c : Case) : Except Breakdown Report :=
  if r.stopped then .ok r
  else
    c.mismatches.map fun mismatches =>
      let failed := !mismatches.isEmpty
      { total := r.total + 1
        failures := if failed then r.failures + 1 else r.failures
        lines := r.lines ++ (if verbose then [c.heading] else []) ++ c.resultLines mismatches
        stopped := failed && stopOnFail }

/-- The last lines of a report; the time that it took is given in thousandths of a second. -/
def Report.summary (elapsed : Nat) (r : Report) : List String :=
  if r.stopped then []
  else
    ["", (if r.failures = 0 then Colour.green else Colour.yellow).paint
      s!"Summary: {r.total - r.failures}/{r.total} passed in {elapsed} ms"]

/-- Compares the cases one after the other: the number of failures, and the report. -/
def run (verbose stopOnFail : Bool) (elapsed : Nat) (cases : List Case) :
    Except Breakdown (Nat × String) := do
  let r ← cases.foldlM (Report.add verbose stopOnFail) {}
  return (r.failures, String.join ((r.lines ++ r.summary elapsed).map (· ++ "\n")))

end AchievementLang.Golden

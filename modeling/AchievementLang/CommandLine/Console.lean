import AchievementLang.CommandLine.Options
import AchievementLang.Compilation
import AchievementLang.Settings
import AchievementLang.Text.ControlSequence

/-!
# Running a command

A command prints, writes files, and may stop early. `Console` is such a run: what has been
printed stays printed when it stops. Files are read from a `Files` value, so that a run is a
function of the command line, the environment and the files.

What is printed quotes scripts, files and the command line, so it is printed without control
sequences. The log keeps them.
-/

namespace AchievementLang.CommandLine

/-- Why a file cannot be opened. -/
inductive FileError
  | missing
  | directory
  deriving DecidableEq, Repr

/-- The files that a command finds. -/
structure Files where
  /-- The text of a file. -/
  read : String → Except FileError String
  /-- A file can be written. -/
  write : String → Except FileError Unit

/-- What ends a run without being reported as an error of its own. -/
inductive Crash
  | file (path : String) (e : FileError)
  /-- The depth of calls is set to a text that is no integer. -/
  | depthText (text : String)
  | settings (p : Settings.Problem)
  /-- The notes are not JSON. -/
  | notes (path : String)
  | breakdown (b : Breakdown)
  deriving DecidableEq, Repr

/-- What a user is told about a crash. -/
def Crash.message : Crash → String
  | file path .missing => s!"cannot open {path}: there is no such file"
  | file path .directory => s!"cannot open {path}: it is a directory"
  | depthText text => "the depth of calls is not an integer: " ++ Text.quoted text
  | settings p => p.message
  | notes path => s!"{path} is not JSON"
  | breakdown b => b.message

/-- Why a run stops early. -/
inductive Stop
  | exit (code : Nat)
  | crash (c : Crash)

/-- What a run leaves behind. -/
structure Output where
  stdout : String := ""
  stderr : String := ""
  /-- The files written, in order. -/
  written : List (String × String) := []

/-- A run. -/
abbrev Console := ExceptT Stop (StateM Output)

namespace Console

/-- Prints a line. -/
def print (line : String) : Console Unit :=
  modify fun o => { o with stdout := o.stdout ++ Text.plain line ++ "\n" }

/-- Prints a line about an error. -/
def printError (line : String) : Console Unit :=
  modify fun o => { o with stderr := o.stderr ++ Text.plain line ++ "\n" }

/-- Stops with an exit code. -/
def exit {α : Type} (code : Nat) : Console α := throw (.exit code)

/-- Stops on what is not reported. -/
def crash {α : Type} (c : Crash) : Console α := throw (.crash c)

/-- Stops on a command line that makes no sense. -/
def usage {α : Type} (g : Grammar) (e : UsageError) : Console α := do
  printError g.usage
  printError ("Try '" ++ g.invocation ++ " --help' for help.")
  printError ""
  printError ("Error: " ++ e.message)
  exit 2

/-- The value, unless the command line makes no sense. -/
def orUsage {α : Type} (g : Grammar) : Except UsageError α → Console α
  | .ok a => return a
  | .error e => usage g e

/-- The text of a file, with its line ends unified. -/
def readFile (files : Files) (path : String) : Console String :=
  match files.read path with
  | .ok text => return String.ofList (Text.unifyLineEnds text.toList)
  | .error e => crash (.file path e)

/-- Writes a file. -/
def writeFile (files : Files) (path text : String) : Console Unit :=
  match files.write path with
  | .ok () => modify fun o => { o with written := o.written ++ [(path, text)] }
  | .error e => crash (.file path e)

end Console

/-! ## The log -/

/-- The parts of the program that write to the log. -/
inductive LogSource
  | parser | evaluator | builtins | script | trigger

/-- The name under which a part writes to the log. -/
def LogSource.name : LogSource → String
  | parser => "rascript.parser.parser"
  | evaluator => "rascript.interpreter.evaluator"
  | builtins => "rascript.interpreter.builtins"
  | script => "rascript.interpreter.script"
  | trigger => "rascript.trigger.context"

/-- An entry of the log. -/
structure LogEntry where
  level : LogLevel
  source : LogSource
  message : String

/-- The entry as it is printed. -/
def LogEntry.line (e : LogEntry) : String :=
  e.level.name ++ " " ++ e.source.name ++ ": " ++ e.message

/-- What the log says about an event. Of a compilation it tells the result only. -/
def LogEntry.ofEvent? : Event → Option LogEntry
  | .reducing f depth => some ⟨.debug, .evaluator, s!"Reducing {f} at depth {depth}"⟩
  | .evaluating f depth => some ⟨.debug, .evaluator, s!"Evaluating {f} at depth {depth}"⟩
  | .compiling _ => none
  | .condition e text => some ⟨.debug, .trigger, s!"Condition {e.text} -> {text}"⟩
  | .value e text => some ⟨.debug, .trigger, s!"Value {e.text} -> {text}"⟩
  | .registeredAchievement title trigger =>
    some ⟨.info, .builtins, s!"Registered achievement '{title}': {trigger.wire}"⟩
  | .registeredLeaderboard title definition =>
    some ⟨.info, .builtins, s!"Registered leaderboard '{title}': {definition.wire}"⟩

/-- What a run goes by. -/
structure Context where
  settings : Settings
  /-- Entries below this level are not printed. -/
  level : LogLevel
  files : Files

namespace Console

/-- Writes to the log, if the level asks for it. -/
def log (ctx : Context) (e : LogEntry) : Console Unit :=
  if ctx.level.rank ≤ e.level.rank then
    modify fun o => { o with stderr := o.stderr ++ e.line ++ "\n" }
  else return

/-- Writes the events of a run to the log; they are given latest first. -/
def logEvents (ctx : Context) (events : List Event) : Console Unit :=
  if ctx.level.rank ≤ LogLevel.info.rank then
    (events.reverse.filterMap LogEntry.ofEvent?).forM (log ctx)
  else return

/-- Compiles the script in a file; an error of the script is reported and stops the run. -/
def compile (ctx : Context) (path : String) : Console Compilation := do
  let text ← readFile ctx.files path
  match Script.parse text with
  | .error f => report (.fault f)
  | .ok script =>
    log ctx ⟨.debug, .parser, s!"Parsed {script.statements.length} statements"⟩
    let (result, events) := script.compile ctx.settings.callDepth
    logEvents ctx events
    match result with
    | .error f => report f
    | .ok c =>
      log ctx ⟨.info, .script,
        s!"Compiled {c.achievements.length} achievements and {c.leaderboards.length} leaderboards"⟩
      return c
where
  /-- Reports why a script failed. -/
  report {α : Type} (f : Failure) : Console α := do
    match f, f.diagnostic? with
    | .breakdown b, _ => crash (.breakdown b)
    | _, none => exit 1
    | _, some d =>
      log ctx ⟨.warning, .script, s!"{path}: {d.describe}"⟩
      printError s!"{path}: {d.describe}"
      match d.hint with
      | some hint => printError ("  hint: " ++ hint)
      | none => pure ()
      exit 1

end Console

end AchievementLang.CommandLine

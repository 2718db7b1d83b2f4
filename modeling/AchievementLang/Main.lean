import AchievementLang.CommandLine.Commands

/-!
# The program

Reads the environment and the files that the command line mentions, runs it, and prints and
writes what comes of it.
-/

namespace AchievementLang.CommandLine

/-- The settings that the environment may hold. -/
def settingNames : List String :=
  ["RASCRIPT_MAX_CALL_DEPTH", "RASCRIPT_NUMBER_FORMAT", "RASCRIPT_LOG_LEVEL"]

/-- The environment, as far as it concerns the program. -/
def readEnvironment : IO (Bindings String) := do
  let found ← settingNames.mapM fun name => do
    return (← IO.getEnv name).map fun value => (name, value)
  return found.filterMap id

/-- What opening a file gives. -/
def readEntry (path : String) : IO (Except FileError String) := do
  try return .ok (← IO.FS.readFile path)
  catch
    | .noFileOrDirectory .. => return .error .missing
    | _ => return .error .directory

/-- The files that a command line mentions. -/
def readFiles (args : List String) : IO Files := do
  let entries ← (mentioned args).mapM fun path => do return (path, ← readEntry path)
  return { read := fun path => (entries.lookup path).getD (.error .missing)
           write := fun _ => .ok () }

end AchievementLang.CommandLine

open AchievementLang CommandLine in
/-- Runs the command line. -/
def main (args : List String) : IO UInt32 := do
  let outcome := run (← readEnvironment) (← readFiles args) args
  (← IO.getStdout).putStr outcome.output.stdout
  (← IO.getStderr).putStr outcome.output.stderr
  for (path, text) in outcome.output.written do
    IO.FS.writeFile path text
  match outcome.crash with
  | some c => (← IO.getStderr).putStr (c.message ++ "\n")
  | none => pure ()
  return outcome.code.toUInt32

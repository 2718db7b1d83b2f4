import AchievementLang.CommandLine.Compare
import AchievementLang.CommandLine.Show

/-!
# The commands

`validate` and `compile` run a script, `show` prints what is written on the wire, and `compare`
tells what one script changes against another.
-/

namespace AchievementLang.CommandLine

/-- The commands. -/
inductive Command
  | validate | compile | inspect | compare
  deriving DecidableEq, Repr

/-- The option that shows literals in base sixteen. -/
def hexSwitch : Switch := { long := "--hex", help := "Show literals in hexadecimal" }

namespace Command

/-- Every command. -/
def all : List Command := [compare, compile, inspect, validate]

/-- The name of the command. -/
def name : Command → String
  | validate => "validate"
  | compile => "compile"
  | inspect => "show"
  | compare => "compare"

/-- The command with a name. -/
def ofName? (s : String) : Option Command := all.find? (·.name == s)

/-- What can follow the name of the command. -/
def grammar (c : Command) : Grammar :=
  match c with
  | validate => { command := some c.name, switches := [], operands := ["PATH"] }
  | compile =>
    { command := some c.name, operands := ["PATH"]
      switches := [{ short := some 'o', long := "--out", value := some "TEXT", help := "" }] }
  | inspect =>
    { command := some c.name, operands := ["TRIGGER"]
      switches :=
        [hexSwitch,
         { long := "--value", help := "TRIGGER is a leaderboard value string" },
         { long := "--notes", value := some "FILE"
           help := "JSON file of memory notes to print under each requirement" }]
      help := "Print the requirements of a serialized trigger, one per line." }
  | compare =>
    { command := some c.name, operands := ["LOCAL", "OTHER"], switches := [hexSwitch]
      help := "Compare the achievements of LOCAL against OTHER." }

end Command

/-- What can follow the name of the program. -/
def program : Grammar where
  command := none
  switches :=
    [{ short := some 'v', long := "--verbose", help := "Enable debug logging" }]
  operands := ["COMMAND", "[ARGS]..."]

/-- The help of the program. -/
def programHelp : String :=
  program.helpText (["", "Commands:"] ++ Command.all.map fun c => "  " ++ c.name)

/-! ## Running a command -/

/-- What comes of a command whose operands have been counted. -/
def Command.run (ctx : Context) (c : Command) (given : Given) : Console Unit := do
  let operand (n : Nat) : String := given.operands.getD n ""
  match c with
  | validate =>
    let result ← Console.compile ctx (operand 0)
    Console.print
      s!"OK ({result.achievements.length} achievements, {result.leaderboards.length} leaderboards)"
  | compile =>
    let out := (given.value? "--out").getD "out.json"
    let result ← Console.compile ctx (operand 0)
    Console.writeFile ctx.files out (Document.of result).text
    Console.print ("Wrote " ++ out)
  | inspect =>
    let format := if given.has "--hex" then .hexadecimal else ctx.settings.format
    let notes ← match given.value? "--notes" with
      | some path => readNotes ctx c.grammar path
      | none => pure []
    showText { format := format, notes := notes } (given.has "--value") (operand 0)
  | compare =>
    let format := if given.has "--hex" then .hexadecimal else .decimal
    compareFiles ctx format (operand 0) (operand 1)

/-- Checks that the notes can be opened, if there are any. -/
def checkNotes (files : Files) (given : Given) : Except UsageError Unit :=
  match given.value? "--notes" with
  | none => .ok ()
  | some path =>
    match files.read path with
    | .ok _ => .ok ()
    | .error e =>
      let reason := match e with
        | .missing => "does not exist."
        | .directory => "is a directory."
      .error (.badValue "'--notes'" ("File " ++ Text.quoted path ++ " " ++ reason))

/-- Splits the arguments of a command and runs it. -/
def Command.start (ctx : Context) (c : Command) (args : List String) : Console Unit := do
  let given ← Console.orUsage c.grammar (split c.grammar false args)
  if given.has helpSwitch.long then Console.print (c.grammar.helpText [])
  else
    Console.orUsage c.grammar (checkNotes ctx.files given)
    Console.orUsage c.grammar (checkOperands c.grammar given)
    c.run ctx given

/-- The settings of an environment, unless they make no sense. -/
def readSettings (env : Bindings String) : Console Settings := do
  match Settings.read env with
  | .error text => Console.crash (.depthText text)
  | .ok settings =>
    match settings.problem? with
    | some p => Console.crash (.settings p)
    | none => return settings

/-- Stops on a name that no command has. A name that looks like options, which it can only after
`--`, is read as such first. -/
def rejectCommand (name : String) (args : List String) : Console Unit := do
  let given ← Console.orUsage program (split program true args)
  if given.has helpSwitch.long then Console.print programHelp
  else Console.usage program (.unknownCommand name (similar name (Command.all.map (·.name))))

/-- Runs a command line. -/
def runArgs (env : Bindings String) (files : Files) (args : List String) : Console Unit := do
  let given ← Console.orUsage program (split program true args)
  if given.has helpSwitch.long then Console.print programHelp
  else
    match given.operands with
    | [] =>
      if args.isEmpty then
        Console.printError programHelp
        Console.exit 2
      else Console.usage program .noCommand
    | name :: rest =>
      match Command.ofName? name with
      | none => rejectCommand name given.operands
      | some c =>
        let settings ← readSettings env
        let level := if given.has "--verbose" then .debug else settings.level
        c.start { settings := settings, level := level, files := files } rest

/-- What a command line comes to: its exit code or what it broke down on, and its output. -/
structure Outcome where
  code : Nat
  crash : Option Crash := none
  output : Output

/-- Runs a command line. -/
def run (env : Bindings String) (files : Files) (args : List String) : Outcome :=
  match (runArgs env files args).run.run {} with
  | (.ok (), output) => { code := 0, output := output }
  | (.error (.exit code), output) => { code := code, output := output }
  | (.error (.crash c), output) => { code := 1, crash := some c, output := output }

/-- Every text of a command line that may name a file. -/
def mentioned (args : List String) : List String :=
  match split program true args with
  | .error _ => []
  | .ok given =>
    match given.operands with
    | [] => []
    | name :: rest =>
      match Command.ofName? name with
      | none => []
      | some c =>
        match split c.grammar false rest with
        | .error _ => []
        | .ok given => given.operands ++ given.options.filterMap (·.2) ++ ["out.json"]

end AchievementLang.CommandLine

import AchievementLang.Diff.Alignment
import AchievementLang.Text.Quoted

/-!
# Options

Splitting a command line into options and operands, and what is wrong with one that cannot be
split. Options may stand anywhere among the operands of a command, up to `--`; those of the
program itself come before the name of the command.
-/

namespace AchievementLang.CommandLine

/-- An option. -/
structure Switch where
  /-- Its letter, after one dash. -/
  short : Option Char := none
  /-- Its name, with two dashes. -/
  long : String
  /-- What its value is called, if it takes one. -/
  value : Option String := none
  help : String
  deriving DecidableEq, Repr

/-- What can follow on the command line. -/
structure Grammar where
  /-- The command, none for the program itself. -/
  command : Option String
  switches : List Switch
  /-- What the operands are called. -/
  operands : List String
  help : String := ""

/-- The option that every command has. -/
def helpSwitch : Switch := { long := "--help", help := "Show this message and exit." }

namespace Grammar

/-- The options, help included. -/
def allSwitches (g : Grammar) : List Switch := g.switches ++ [helpSwitch]

/-- The program, with the name of the command. -/
def invocation (g : Grammar) : String :=
  match g.command with
  | none => "cli"
  | some name => "cli " ++ name

/-- The line that says what may follow. -/
def usage (g : Grammar) : String :=
  "Usage: " ++ g.invocation ++ " [OPTIONS] " ++ " ".intercalate g.operands

end Grammar

/-! ## Errors -/

/-- What is wrong with a command line. -/
inductive UsageError
  | unknownOption (name : String) (similar : List String)
  | valueMissing (name : String)
  | valueUnwanted (name : String)
  | missingOperand (name : String)
  | surplusOperands (given : List String)
  | noCommand
  | unknownCommand (name : String) (similar : List String)
  | badValue (option : String) (reason : String)
  deriving DecidableEq, Repr

namespace UsageError

/-- Names that may have been meant. -/
def suggestion : List String → String
  | [] => ""
  | [name] => " Did you mean " ++ Text.quoted name ++ "?"
  | names => " (Did you mean one of: " ++ ", ".intercalate
      ((names.mergeSort (· ≤ ·)).map Text.quoted) ++ "?)"

/-- The message. -/
def message : UsageError → String
  | unknownOption name similar =>
    "No such option " ++ Text.quoted name ++ "." ++ suggestion similar
  | valueMissing name => "Option " ++ Text.quoted name ++ " requires an argument."
  | valueUnwanted name => "Option " ++ Text.quoted name ++ " does not take a value."
  | missingOperand name => s!"Missing argument '{name}'."
  | surplusOperands [one] => s!"Got unexpected extra argument ({one})"
  | surplusOperands given =>
    "Got unexpected extra arguments (" ++ " ".intercalate given ++ ")"
  | noCommand => "Missing command."
  | unknownCommand name similar =>
    "No such command " ++ Text.quoted name ++ "." ++ suggestion similar
  | badValue option reason => s!"Invalid value for {option}: {reason}"

end UsageError

/-- How alike two texts are: the items that they share against those that they have, doubled to
stay with integers. -/
structure Likeness where
  shared : Nat
  total : Nat

/-- The likeness of a candidate to a word. -/
def likeness (candidate word : String) : Likeness where
  shared := 2 * Diff.keptCount candidate.toList word.toList
  total := candidate.length + word.length

/-- Three fifths or more are shared. -/
def Likeness.isClose (l : Likeness) : Bool := 3 * l.total ≤ 5 * l.shared

/-- The first is no less alike than the second; of equally alike ones the later name first. -/
def Likeness.atLeast (a b : Likeness × String) : Bool :=
  let left := a.1.shared * b.1.total
  let right := b.1.shared * a.1.total
  right < left || (left == right && b.2 ≤ a.2)

/-- The candidates that are most alike to a word, three at most. -/
def similar (word : String) (candidates : List String) : List String :=
  let close := (candidates.map fun c => (likeness c word, c)).filter (·.1.isClose)
  ((close.mergeSort Likeness.atLeast).take 3).map (·.2)

/-! ## Splitting -/

/-- The options that were given, in order, and the operands. -/
structure Given where
  options : List (String × Option String) := []
  operands : List String := []
  deriving DecidableEq, Repr

namespace Given

/-- The option was given. -/
def has (g : Given) (long : String) : Bool := g.options.any (·.1 == long)

/-- The last value of an option. -/
def value? (g : Given) (long : String) : Option String :=
  (g.options.reverse.lookup long).join

/-- The same with one more option in front. -/
def withOption (g : Given) (long : String) (value : Option String) : Given :=
  { g with options := (long, value) :: g.options }

/-- The same with one more operand in front. -/
def withOperand (g : Given) (operand : String) : Given :=
  { g with operands := operand :: g.operands }

end Given

/-- What an argument that starts with a dash says. -/
inductive Reading
  | flags (longs : List String)
  /-- Flags, then an option with its value attached. -/
  | attached (longs : List String) (long value : String)
  /-- Flags, then an option whose value is the next argument. -/
  | wantsValue (longs : List String) (long spelling : String)

/-- What the letters after one dash say. -/
def readLetters (g : Grammar) (flags : List String) : List Char → Except UsageError Reading
  | [] => .ok (.flags flags)
  | c :: rest =>
    match g.allSwitches.find? (·.short == some c) with
    | none => .error (.unknownOption (String.ofList ['-', c]) [])
    | some s =>
      if s.value.isNone then readLetters g (flags ++ [s.long]) rest
      else if rest.isEmpty then .ok (.wantsValue flags s.long (String.ofList ['-', c]))
      else .ok (.attached flags s.long (String.ofList rest))

/-- The name and the value of an argument of the form `name=value`. -/
def splitValue (cs : List Char) : List Char × Option (List Char) :=
  match cs.dropWhile (· ≠ '=') with
  | _ :: value => (cs.takeWhile (· ≠ '='), some value)
  | [] => (cs, none)

/-- What an argument that starts with a dash says. -/
def readDashed (g : Grammar) (cs : List Char) : Except UsageError Reading :=
  let (nameChars, value) := splitValue cs
  let name := String.ofList nameChars
  match g.allSwitches.find? (·.long == name), value with
  | some s, some v =>
    if s.value.isSome then .ok (.attached [] s.long (String.ofList v))
    else .error (.valueUnwanted name)
  | some s, none =>
    if s.value.isSome then .ok (.wantsValue [] s.long name) else .ok (.flags [s.long])
  | none, _ =>
    match cs with
    | '-' :: '-' :: _ => .error (.unknownOption name (similar name (g.allSwitches.map (·.long))))
    | _ :: letters => readLetters g [] letters
    | [] => .ok (.flags [])

/-- The argument starts with a dash and holds more. -/
def isDashed : List Char → Bool
  | '-' :: _ :: _ => true
  | _ => false

/-- Options given without a value, in front of others. -/
def withFlags (longs : List String) (g : Given) : Given :=
  longs.foldr (fun long g => g.withOption long none) g

/-- Splits arguments. With `leading`, the first operand ends the options. -/
def split (g : Grammar) (leading : Bool) : List String → Except UsageError Given
  | [] => .ok {}
  | arg :: rest =>
    if arg == "--" then .ok { operands := rest }
    else if isDashed arg.toList then
      match readDashed g arg.toList with
      | .error e => .error e
      | .ok (.flags longs) => (split g leading rest).map (withFlags longs)
      | .ok (.attached longs long value) =>
        (split g leading rest).map fun given => withFlags longs (given.withOption long (some value))
      | .ok (.wantsValue longs long spelling) =>
        match rest with
        | [] => .error (.valueMissing spelling)
        | value :: rest =>
          (split g leading rest).map fun given =>
            withFlags longs (given.withOption long (some value))
    else if leading then .ok { operands := arg :: rest }
    else (split g leading rest).map (·.withOperand arg)

/-- Gives each operand its name; there must be as many as are asked for. -/
def checkOperands (g : Grammar) (given : Given) : Except UsageError Unit :=
  match g.operands.drop given.operands.length with
  | missing :: _ => .error (.missingOperand missing)
  | [] =>
    match given.operands.drop g.operands.length with
    | [] => .ok ()
    | surplus => .error (.surplusOperands surplus)

/-! ## Help -/

/-- How an option is shown. -/
def Switch.heading (s : Switch) : String :=
  (match s.short with | some c => String.ofList ['-', c, ',', ' '] | none => "") ++ s.long ++
    (match s.value with | some v => " " ++ v | none => "")

/-- The help of a command. -/
def Grammar.helpText (g : Grammar) (sections : List String) : String :=
  let widest := (g.allSwitches.map (·.heading.length)).foldl max 0
  let row (s : Switch) : String :=
    "  " ++ s.heading ++ "".pushn ' ' (widest - s.heading.length) ++ "  " ++ s.help
  "\n".intercalate
    ([g.usage, ""] ++ (if g.help.isEmpty then [] else ["  " ++ g.help, ""]) ++
      ["Options:"] ++ g.allSwitches.map row ++ sections)

end AchievementLang.CommandLine

import AchievementLang.CommandLine.Console
import AchievementLang.Json.Display
import AchievementLang.Json.Reader
import AchievementLang.Wire.Leaderboard

/-!
# Showing triggers

Prints what is written on the wire, one row a line, with the notes for the addresses that a row
reads below it.
-/

namespace AchievementLang.CommandLine

/-- How rows are shown. -/
structure View where
  format : Wire.NumberFormat
  notes : Wire.Notes

namespace View

/-- Prints a note. -/
def printNote (text : String) : Console Unit :=
  (Text.lines text.toList).forM fun line => Console.print ("      ; " ++ String.ofList line)

/-- Prints a row. -/
def printRow (v : View) (r : Wire.Requirement) : Console Unit := do
  Console.print ("  " ++ r.display v.format)
  if !v.notes.isEmpty then printNote (r.notesText v.notes)

/-- Prints a group under its label. -/
def printGroup (v : View) (label : String) (g : Wire.Group) : Console Unit := do
  Console.print (label ++ ":")
  g.forM v.printRow

/-- Prints alternate groups, counted from `n`. -/
def printAlternates (v : View) (lead : String) : Nat → List Wire.Group → Console Unit
  | _, [] => return
  | n, g :: rest => do
    v.printGroup s!"{lead}Alt {n}" g
    printAlternates v lead (n + 1) rest

/-- Prints a trigger. -/
def printTrigger (v : View) (label lead : String) (t : Wire.Trigger) : Console Unit := do
  v.printGroup label t.core
  v.printAlternates lead 1 t.alternates

/-- Prints a term of a value. -/
def printTerm (v : View) (t : Wire.Term) : Console Unit := do
  match t.display? with
  | none => Console.crash (.breakdown .tooLarge)
  | some text =>
    Console.print ("  " ++ text)
    match t.field with
    | some f => if !v.notes.isEmpty && f.isMemory then printNote ((v.notes.at? f.value).getD "")
    | none => return

/-- Prints alternatives of a value, counted from `n` if there are several. -/
def printSums (v : View) (several : Bool) : Nat → List Wire.Sum → Console Unit
  | _, [] => return
  | n, s :: rest => do
    Console.print (if several then s!"Value {n}:" else "Value:")
    s.forM v.printTerm
    printSums v several (n + 1) rest

/-- Prints a value. -/
def printValue (v : View) (value : Wire.Value) : Console Unit :=
  v.printSums (value.length ≠ 1) 1 value

end View

/-- The value, unless a text on the wire cannot be read, which is reported and stops the run. -/
def orMalformed {α : Type} : Except Wire.ReadFailure α → Console α
  | .ok a => return a
  | .error e => do
    match Failure.ofReading e with
    | .breakdown b => Console.crash (.breakdown b)
    | f =>
      match f.diagnostic? with
      | some d => Console.printError ("Error: " ++ d.describe)
      | none => pure ()
      Console.printError "Aborted!"
      Console.exit 1

/-- Prints a section of a definition. -/
def showSection (v : View) (label text : String) : Console Unit := do
  v.printTrigger label (label ++ " ") (← orMalformed (Wire.readTrigger text))

/-- Prints a leaderboard definition. -/
def showDefinition (v : View) (text : String) : Console Unit := do
  let d ← orMalformed (Wire.readDefinition text)
  showSection v "Start Conditions" d.start
  showSection v "Cancel Condition" d.cancel
  showSection v "Submit Condition" d.submit
  v.printValue (← orMalformed (Wire.readValue d.value))

/-- Prints what is written on the wire. -/
def showText (v : View) (isValue : Bool) (text : String) : Console Unit := do
  if isValue then v.printValue (← orMalformed (Wire.readValue text))
  else if text.startsWith "STA:" then showDefinition v text
  else v.printTrigger "Core" "" (← orMalformed (Wire.readTrigger text))

/-! ## Notes -/

/-- The notes in the fields of an object; the key that is no address, if there is one. Of
several notes for an address the last counts. -/
def notesOf : List (String × Json) → Except String Wire.Notes
  | [] => .ok []
  | (key, note) :: rest =>
    match Text.readPrefixedInt? key with
    | none => .error key
    | some address =>
      match notesOf rest with
      | .error bad => .error bad
      | .ok notes =>
        .ok (if (notes.lookup address).isSome then notes else (address, note.display) :: notes)

/-- The notes in a file. -/
def readNotes (ctx : Context) (g : Grammar) (path : String) : Console Wire.Notes := do
  match Json.read? (← Console.readFile ctx.files path) with
  | none => Console.crash (.notes path)
  | some (.object fields) =>
    match notesOf fields with
    | .ok notes => return notes
    | .error key =>
      Console.usage g (.badValue "--notes" (Text.quoted key ++ " is not an address"))
  | some _ => Console.usage g (.badValue "--notes" "notes file must contain a JSON object")

end AchievementLang.CommandLine

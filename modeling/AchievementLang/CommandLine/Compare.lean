import AchievementLang.CommandLine.Console
import AchievementLang.Diff.Achievement
import AchievementLang.Document.Basic

/-!
# Comparing scripts

Prints what one list of achievements changes against another. Each achievement on the left is
matched with the first one on the right that is still free and has its number, or else its
title.
-/

namespace AchievementLang.CommandLine

/-! ## Matching -/

/-- The achievement of a list that another one is to be compared with. -/
def match? (a : Achievement) (candidates : List Achievement) : Option Achievement :=
  (candidates.find? fun c => a.id ≠ 0 ∧ a.id = c.id).or
    (candidates.find? fun c => a.title = c.title)

/-- What becomes of an achievement. -/
inductive Finding
  | onlyLeft (a : Achievement)
  | onlyRight (a : Achievement)
  | both (left right : Achievement)

/-- Matches the achievements of two lists. -/
def matchAll : List Achievement → List Achievement → List Finding
  | [], right => right.map .onlyRight
  | a :: left, right =>
    match match? a right with
    | none => .onlyLeft a :: matchAll left right
    | some b => .both a b :: matchAll left (right.erase b)

/-! ## Printing -/

/-- The lines for two rows side by side. -/
def rowLines (format : Wire.NumberFormat) (p : Diff.RowPair) : List String :=
  if p.isModified then
    (p.left.map fun r => "    - " ++ r.display format).toList ++
      (p.right.map fun r => "    + " ++ r.display format).toList
  else (p.left.map fun r => "      " ++ r.display format).toList

/-- The lines for a group, none if nothing differs. -/
def groupLines (format : Wire.NumberFormat) (g : Diff.GroupDiff) : List String :=
  if g.isModified then ("  " ++ g.label ++ ":") :: g.rows.flatMap (rowLines format) else []

/-- The lines for two achievements. -/
def diffLines (format : Wire.NumberFormat) (left right : Achievement) : List String :=
  let d := Diff.achievements left right
  if d.isModified then
    let changed := d.changed
    ("Modified: " ++ left.title ++
      (if changed.isEmpty then "" else " (" ++ ", ".intercalate changed ++ ")")) ::
      d.groups.flatMap (groupLines format)
  else ["Unchanged: " ++ left.title]

/-- The lines for a finding; the two sides have names. -/
def findingLines (format : Wire.NumberFormat) (leftName rightName : String) :
    Finding → List String
  | .onlyLeft a => [s!"Only in {leftName}: {a.title}"]
  | .onlyRight a => [s!"Only in {rightName}: {a.title}"]
  | .both a b => diffLines format a b

/-- The lines for two lists of achievements. -/
def compareLines (format : Wire.NumberFormat) (leftName rightName : String)
    (left right : List Achievement) : List String :=
  (matchAll left right).flatMap (findingLines format leftName rightName)

/-! ## Reading either side -/

/-- The achievements in a document; what is wrong with it is reported and stops the run. -/
def documentAchievements (path text : String) : Console (List Achievement) := do
  match Document.read text with
  | .error problems =>
    Console.printError s!"{path}: {problems.length} problems in the document"
    Console.exit 1
  | .ok d =>
    match d.readAchievements with
    | .ok achievements => return achievements
    | .error e =>
      match Failure.ofReading e with
      | .breakdown b => Console.crash (.breakdown b)
      | f =>
        match f.diagnostic? with
        | some d => Console.printError s!"{path}: {d.label}"
        | none => pure ()
        Console.exit 1

/-- The achievements in a script, or in a document if its name says so. -/
def achievementsIn (ctx : Context) (path : String) : Console (List Achievement) := do
  if path.endsWith ".json" then
    documentAchievements path (← Console.readFile ctx.files path)
  else return (← Console.compile ctx path).achievements

/-- Compares the achievements in two files. -/
def compareFiles (ctx : Context) (format : Wire.NumberFormat) (left right : String) :
    Console Unit := do
  let there ← achievementsIn ctx right
  let here ← achievementsIn ctx left
  (compareLines format left right here there).forM Console.print

end AchievementLang.CommandLine

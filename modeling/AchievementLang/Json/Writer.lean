import AchievementLang.Json.Basic
import AchievementLang.Text.Hex

/-!
# Writing JSON

Two layouts: on one line, and indented by two blanks a level. Only quotes, backslashes and
control characters are escaped.
-/

namespace AchievementLang.Json

/-- One character inside quotes. -/
def escapedChar (c : Char) : List Char :=
  match c with
  | '"' => ['\\', '"']
  | '\\' => ['\\', '\\']
  | '\x08' => ['\\', 'b']
  | '\x0c' => ['\\', 'f']
  | '\n' => ['\\', 'n']
  | '\r' => ['\\', 'r']
  | '\t' => ['\\', 't']
  | _ => if c.toNat < 0x20 then '\\' :: 'u' :: Text.hexPadded 4 c.toNat else [c]

/-- A text between quotes. -/
def stringText (s : String) : String :=
  String.ofList ('"' :: s.toList.flatMap escapedChar ++ ['"'])

/-- A number as it is written. -/
def numberText : JsonNumber → String
  | .int n => toString n
  | .decimal negative coefficient exponent =>
    (if negative then "-" else "") ++ toString coefficient ++ "e" ++ toString exponent
  | .infinity negative => if negative then "-Infinity" else "Infinity"
  | .notANumber => "NaN"

mutual

/-- The document on one line. -/
def compact : Json → String
  | .null => "null"
  | .bool b => if b then "true" else "false"
  | .number n => numberText n
  | .string s => stringText s
  | .array items => "[" ++ ",".intercalate (compactItems items) ++ "]"
  | .object fields => "\x7b" ++ ",".intercalate (compactFields fields) ++ "\x7d"

/-- The items of an array, each on one line. -/
def compactItems : List Json → List String
  | [] => []
  | j :: rest => j.compact :: compactItems rest

/-- The fields of an object, each on one line. -/
def compactFields : List (String × Json) → List String
  | [] => []
  | (key, j) :: rest => (stringText key ++ ":" ++ j.compact) :: compactFields rest

end

/-- A new line at a level of nesting. -/
def newLine (level : Nat) : String := "\n" ++ "".pushn ' ' (2 * level)

/-- Parts on lines of their own between brackets; brackets alone if there are none. -/
def block (level : Nat) (opening closing : String) (parts : List String) : String :=
  if parts.isEmpty then opening ++ closing
  else opening ++ newLine (level + 1) ++ ("," ++ newLine (level + 1)).intercalate parts ++
    newLine level ++ closing

mutual

/-- The document with its parts indented; its own first line is at the given level. -/
def indented (level : Nat) : Json → String
  | .null => "null"
  | .bool b => if b then "true" else "false"
  | .number n => numberText n
  | .string s => stringText s
  | .array items => block level "[" "]" (indentedItems (level + 1) items)
  | .object fields => block level "\x7b" "\x7d" (indentedFields (level + 1) fields)

/-- The items of an array, indented. -/
def indentedItems (level : Nat) : List Json → List String
  | [] => []
  | j :: rest => j.indented level :: indentedItems level rest

/-- The fields of an object, indented. -/
def indentedFields (level : Nat) : List (String × Json) → List String
  | [] => []
  | (key, j) :: rest =>
    (stringText key ++ ": " ++ j.indented level) :: indentedFields level rest

end

/-- The document over several lines. -/
def pretty (j : Json) : String := j.indented 0

end AchievementLang.Json

import AchievementLang.Json.Basic
import AchievementLang.Numeric.Shortest
import AchievementLang.Text.Quoted

/-!
# Showing documents

How a value of a document is shown inside running text: a text as it is, everything else on one
line, with texts inside of arrays and objects between quotes.
-/

namespace AchievementLang.Json

/-- A number in double precision, where it is no integer. -/
def displayNumber : JsonNumber → String
  | .int n => toString n
  | .decimal negative coefficient exponent =>
    (if negative then "-" else "") ++
      match Numeric.Binary64.ofDecimal coefficient exponent with
      | .zero => "0.0"
      | .finite b => Numeric.plainLayout.render (Numeric.shortest b)
      | .overflow => "inf"
  | .infinity negative => if negative then "-inf" else "inf"
  | .notANumber => "nan"

mutual

/-- A value inside of an array or object. -/
def displayInner : Json → String
  | .null => "None"
  | .bool b => if b then "True" else "False"
  | .number n => displayNumber n
  | .string s => Text.quoted s
  | .array items => "[" ++ ", ".intercalate (displayItems items) ++ "]"
  | .object fields => "\x7b" ++ ", ".intercalate (displayFields fields) ++ "\x7d"

/-- The items of an array. -/
def displayItems : List Json → List String
  | [] => []
  | j :: rest => j.displayInner :: displayItems rest

/-- The fields of an object. -/
def displayFields : List (String × Json) → List String
  | [] => []
  | (key, j) :: rest => (Text.quoted key ++ ": " ++ j.displayInner) :: displayFields rest

end

/-- A value in running text. -/
def display : Json → String
  | .string s => s
  | j => j.displayInner

end AchievementLang.Json

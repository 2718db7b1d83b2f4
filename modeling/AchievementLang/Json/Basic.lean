import AchievementLang.Bindings

/-!
# JSON

Documents as trees. Objects keep the order of their keys; a key that is given again keeps its
first place and takes the last value, as `Bindings.set` has it.
-/

namespace AchievementLang

/-- A number of a document, as it is written. -/
inductive JsonNumber
  /-- No fraction and no exponent. -/
  | int (n : Int)
  /-- `coefficient * 10 ^ exponent`, with a sign of its own, so that zero can have one. -/
  | decimal (negative : Bool) (coefficient : Nat) (exponent : Int)
  | infinity (negative : Bool)
  | notANumber
  deriving DecidableEq, Repr

/-- A document. -/
inductive Json
  | null
  | bool (b : Bool)
  | number (n : JsonNumber)
  | string (s : String)
  | array (items : List Json)
  | object (fields : List (String × Json))
  deriving Repr

namespace Json

/-- An integer. -/
def int (n : Int) : Json := .number (.int n)

/-- The value of a key, if the document is an object that has it. -/
def get? (j : Json) (key : String) : Option Json :=
  match j with
  | .object fields => Bindings.get? fields key
  | _ => none

end Json

end AchievementLang

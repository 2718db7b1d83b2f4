/-!
# Base sixteen

Numbers in base sixteen, padded with zeros on the left.
-/

namespace AchievementLang.Text

/-- The number in base sixteen, in lower case, padded with zeros to the width. -/
def hexPadded (width n : Nat) : List Char :=
  let digits := Nat.toDigits 16 n
  List.replicate (width - digits.length) '0' ++ digits

/-- The number in base sixteen, in upper case, padded with zeros to the width. -/
def upperHexPadded (width n : Nat) : List Char := (hexPadded width n).map Char.toUpper

/-- The value of a digit of base sixteen. -/
def hexDigit? (c : Char) : Option Nat :=
  if '0' ≤ c ∧ c ≤ '9' then some (c.toNat - '0'.toNat)
  else if 'a' ≤ c ∧ c ≤ 'f' then some (c.toNat - 'a'.toNat + 10)
  else if 'A' ≤ c ∧ c ≤ 'F' then some (c.toNat - 'A'.toNat + 10)
  else none

/-- The character is a digit of base sixteen. -/
def isHexDigit (c : Char) : Bool := (hexDigit? c).isSome

/-- The number written by digits of base sixteen, most significant first. -/
def hexValue (cs : List Char) : Nat :=
  cs.foldl (fun n c => 16 * n + (hexDigit? c).getD 0) 0

end AchievementLang.Text

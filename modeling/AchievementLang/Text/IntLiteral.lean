import AchievementLang.Text.Blank
import AchievementLang.Text.Digit

/-!
# Integers in settings

Integers as people type them outside of scripts: blanks around, a sign, single underscores
between digits, decimal digits of any script. `readInt?` reads base ten only;
`readPrefixedInt?` also takes the prefixes `0x`, `0o` and `0b`, and without a prefix refuses
leading zeros unless the number is zero.

`readTypedInt?` is for documents in which an integer has been typed as a text: blanks, a plus
sign, leading zeros, single underscores and a fraction of zeros are dropped, and what is left
must be an integer of a document.
-/

namespace AchievementLang.Text

/-- Blanks around an integer: as `isBlank`, without the four information separators. -/
def isIntBlank (c : Char) : Bool := isBlank c && !(0x1c ≤ c.toNat && c.toNat ≤ 0x1f)

/-- A decimal digit of any script as the common digit of its value. -/
def plainDigit (c : Char) : Char :=
  match decimalDigit? c with
  | some d => d.digitChar
  | none => c

/-- The value of a digit, letters of either case standing for ten and up. -/
def digitValue? (c : Char) : Option Nat :=
  if '0' ≤ c ∧ c ≤ '9' then some (c.toNat - '0'.toNat)
  else if 'a' ≤ c ∧ c ≤ 'z' then some (c.toNat - 'a'.toNat + 10)
  else if 'A' ≤ c ∧ c ≤ 'Z' then some (c.toNat - 'A'.toNat + 10)
  else none

/-- The value of a digit of the base. -/
def digitOf? (base : Nat) (c : Char) : Option Nat := (digitValue? c).filter (· < base)

/-- The digits that follow a first digit, an underscore allowed before each of them. -/
def moreDigits? (base : Nat) (acc : Nat) : List Char → Option Nat
  | [] => some acc
  | '_' :: c :: rest =>
    match digitOf? base c with
    | some d => moreDigits? base (base * acc + d) rest
    | none => none
  | c :: rest =>
    match digitOf? base c with
    | some d => moreDigits? base (base * acc + d) rest
    | none => none

/-- One digit or more, single underscores between them. -/
def digits? (base : Nat) : List Char → Option Nat
  | [] => none
  | c :: rest =>
    match digitOf? base c with
    | some d => moreDigits? base d rest
    | none => none

/-- A magnitude with its sign in front. -/
def signed? (magnitude? : List Char → Option Nat) : List Char → Option Int
  | '-' :: rest => (magnitude? rest).map fun n => -(n : Int)
  | '+' :: rest => (magnitude? rest).map fun n => (n : Int)
  | cs => (magnitude? cs).map fun n => (n : Int)

/-- An underscore may stand between a prefix and the first digit. -/
def afterPrefix? (base : Nat) : List Char → Option Nat
  | '_' :: rest => digits? base rest
  | cs => digits? base cs

/-- A magnitude whose prefix tells its base. -/
def prefixed? : List Char → Option Nat
  | '0' :: 'x' :: rest | '0' :: 'X' :: rest => afterPrefix? 16 rest
  | '0' :: 'o' :: rest | '0' :: 'O' :: rest => afterPrefix? 8 rest
  | '0' :: 'b' :: rest | '0' :: 'B' :: rest => afterPrefix? 2 rest
  | '0' :: rest => (digits? 10 ('0' :: rest)).filter (· == 0)
  | cs => digits? 10 cs

/-- An integer in base ten. -/
def readInt? (s : String) : Option Int :=
  signed? (digits? 10) ((trimBy isIntBlank s.toList).map plainDigit)

/-- An integer whose base is told by its prefix, ten without one. -/
def readPrefixedInt? (s : String) : Option Int :=
  signed? prefixed? ((trimBy isIntBlank s.toList).map plainDigit)

/-! ## Integers typed as texts -/

/-- The text from its first significant digit on. -/
def dropZeros? : List Char → Option (List Char)
  | '0' :: rest =>
    match rest.dropWhile fun c => c = '0' || c = '_' with
    | [] => some (('0' :: rest).getLast?.toList)
    | '.' :: more => some ('0' :: '.' :: more)
    | c :: more => if '1' ≤ c ∧ c ≤ '9' then some (c :: more) else none
  | c :: rest => if ('1' ≤ c ∧ c ≤ '9') ∨ c = '-' then some (c :: rest) else none
  | [] => none

/-- The text without a fraction of zeros. -/
def dropZeroFraction (cs : List Char) : List Char :=
  match cs.dropWhile (· ≠ '.') with
  | _ :: fraction => if fraction.all (· = '0') then cs.takeWhile (· ≠ '.') else cs
  | [] => cs

/-- Two underscores stand side by side. -/
def hasDoubleUnderscore : List Char → Bool
  | '_' :: '_' :: _ => true
  | _ :: rest => hasDoubleUnderscore rest
  | [] => false

/-- The text without underscores, if they are single and inside it. -/
def dropUnderscores (cs : List Char) : List Char :=
  if cs.head? = some '_' ∨ cs.getLast? = some '_' ∨ hasDoubleUnderscore cs then cs
  else cs.filter (· ≠ '_')

/-- A natural number in common digits without leading zeros. -/
def canonicalNat? (cs : List Char) : Option Nat :=
  if cs.isEmpty || (cs.head? = some '0' && cs.length ≠ 1) then none
  else if cs.all fun c => '0' ≤ c && c ≤ '9' then digits? 10 cs
  else none

/-- An integer in common digits without leading zeros. -/
def canonicalInt? : List Char → Option Int
  | '-' :: rest => (canonicalNat? rest).map fun n => -(n : Int)
  | cs => (canonicalNat? cs).map fun n => (n : Int)

/-- The text without a plus sign in front. -/
def dropPlus? : List Char → Option (List Char)
  | '+' :: '-' :: _ => none
  | '+' :: rest => some rest
  | cs => some cs

/-- An integer typed as a text. -/
def readTypedInt? (s : String) : Option Int := do
  let unsigned ← dropPlus? (trimBy isIntBlank s.toList)
  let significant ← dropZeros? unsigned
  canonicalInt? (dropUnderscores (dropZeroFraction significant))

end AchievementLang.Text

import AchievementLang.Json.Basic
import AchievementLang.Text.Hex

/-!
# Reading JSON

A strict reader: no comments, no trailing commas, no control characters in strings, and every
surrogate escape half of a pair. `NaN` and the infinities are accepted as numbers.

Every call passes on a smaller fuel. Two calls in a row take at least one character from the
text, so twice its length is fuel enough.
-/

namespace AchievementLang.Json

/-- The text after blanks. -/
def skipBlanks (cs : List Char) : List Char :=
  cs.dropWhile fun c => c = ' ' || c = '\t' || c = '\n' || c = '\r'

/-- The four digits of an escape, and what follows. -/
def readUnit : List Char → Option (Nat × List Char)
  | a :: b :: c :: d :: rest =>
    if [a, b, c, d].all Text.isHexDigit then some (Text.hexValue [a, b, c, d], rest) else none
  | _ => none

/-- The character that a surrogate pair stands for. -/
def pairChar (high low : Nat) : Char :=
  Char.ofNat (0x10000 + (high - 0xD800) * 0x400 + (low - 0xDC00))

/-- The character of an escape whose backslash and `u` have been read. -/
def readEscapedUnit (cs : List Char) : Option (Char × List Char) :=
  match readUnit cs with
  | none => none
  | some (high, rest) =>
    if 0xD800 ≤ high ∧ high < 0xDC00 then
      match rest with
      | '\\' :: 'u' :: more =>
        match readUnit more with
        | some (low, last) =>
          if 0xDC00 ≤ low ∧ low < 0xE000 then some (pairChar high low, last) else none
        | none => none
      | _ => none
    else if 0xDC00 ≤ high ∧ high < 0xE000 then none
    else some (Char.ofNat high, rest)

/-- The character of an escape of one letter. -/
def shortEscape? : Char → Option Char
  | '"' => some '"'
  | '\\' => some '\\'
  | '/' => some '/'
  | 'b' => some '\x08'
  | 'f' => some '\x0c'
  | 'n' => some '\n'
  | 'r' => some '\r'
  | 't' => some '\t'
  | _ => none

/-- The characters up to the closing quote; those before are given in reverse. -/
def readChars : Nat → List Char → List Char → Option (String × List Char)
  | 0, _, _ => none
  | fuel + 1, before, cs =>
    match cs with
    | '"' :: rest => some (String.ofList before.reverse, rest)
    | '\\' :: 'u' :: rest =>
      match readEscapedUnit rest with
      | some (c, more) => readChars fuel (c :: before) more
      | none => none
    | '\\' :: e :: rest =>
      match shortEscape? e with
      | some c => readChars fuel (c :: before) rest
      | none => none
    | c :: rest => if c.toNat < 0x20 then none else readChars fuel (c :: before) rest
    | [] => none

/-- A common digit. -/
def isPlainDigit (c : Char) : Bool := '0' ≤ c && c ≤ '9'

/-- The number that common digits write. -/
def plainValue (cs : List Char) : Nat :=
  cs.foldl (fun n c => 10 * n + (c.toNat - '0'.toNat)) 0

/-- The exponent after its mark. -/
def readExponent (cs : List Char) : Option (Int × List Char) :=
  let (negative, digits) :=
    match cs with
    | '-' :: rest => (true, rest)
    | '+' :: rest => (false, rest)
    | _ => (false, cs)
  let run := digits.takeWhile isPlainDigit
  if run.isEmpty then none
  else
    let n : Int := plainValue run
    some (if negative then -n else n, digits.dropWhile isPlainDigit)

/-- The digits after a point. -/
def readFraction (cs : List Char) : Option (List Char × List Char) :=
  let run := cs.takeWhile isPlainDigit
  if run.isEmpty then none else some (run, cs.dropWhile isPlainDigit)

/-- The number after its sign. -/
def readUnsigned (negative : Bool) (cs : List Char) : Option (JsonNumber × List Char) :=
  let whole := cs.takeWhile isPlainDigit
  let rest := cs.dropWhile isPlainDigit
  if whole.isEmpty ∨ (whole.head? = some '0' ∧ whole.length ≠ 1) then none
  else
    let fraction : Option (List Char × List Char) :=
      match rest with
      | '.' :: more => readFraction more
      | _ => some ([], rest)
    match fraction with
    | none => none
    | some (decimals, afterFraction) =>
      let exponent : Option (Option Int × List Char) :=
        match afterFraction with
        | 'e' :: more | 'E' :: more => (readExponent more).map fun (e, last) => (some e, last)
        | _ => some (none, afterFraction)
      match exponent with
      | none => none
      | some (e, last) =>
        let n := plainValue (whole ++ decimals)
        if decimals.isEmpty && e.isNone then
          some (.int (if negative then -(n : Int) else n), last)
        else some (.decimal negative n (e.getD 0 - decimals.length), last)

/-- A number. -/
def readNumber : List Char → Option (JsonNumber × List Char)
  | '-' :: 'I' :: 'n' :: 'f' :: 'i' :: 'n' :: 'i' :: 't' :: 'y' :: rest =>
    some (.infinity true, rest)
  | '-' :: rest => readUnsigned true rest
  | cs => readUnsigned false cs

mutual

/-- A document at the start of the text, blanks before it skipped. -/
def readValue : Nat → List Char → Option (Json × List Char)
  | 0, _ => none
  | fuel + 1, cs =>
    match skipBlanks cs with
    | 'n' :: 'u' :: 'l' :: 'l' :: rest => some (.null, rest)
    | 't' :: 'r' :: 'u' :: 'e' :: rest => some (.bool true, rest)
    | 'f' :: 'a' :: 'l' :: 's' :: 'e' :: rest => some (.bool false, rest)
    | 'N' :: 'a' :: 'N' :: rest => some (.number .notANumber, rest)
    | 'I' :: 'n' :: 'f' :: 'i' :: 'n' :: 'i' :: 't' :: 'y' :: rest =>
      some (.number (.infinity false), rest)
    | '"' :: rest => (readChars (rest.length + 1) [] rest).map fun (s, last) => (.string s, last)
    | '[' :: rest =>
      match skipBlanks rest with
      | ']' :: last => some (.array [], last)
      | more => readItems fuel [] more
    | '\x7b' :: rest =>
      match skipBlanks rest with
      | '\x7d' :: last => some (.object [], last)
      | more => readFields fuel [] more
    | more => (readNumber more).map fun (n, last) => (.number n, last)

/-- The items of an array up to its closing bracket; those before are given in reverse. -/
def readItems : Nat → List Json → List Char → Option (Json × List Char)
  | 0, _, _ => none
  | fuel + 1, before, cs =>
    match readValue fuel cs with
    | none => none
    | some (item, rest) =>
      match skipBlanks rest with
      | ',' :: more => readItems fuel (item :: before) more
      | ']' :: last => some (.array (item :: before).reverse, last)
      | _ => none

/-- The fields of an object up to its closing brace. -/
def readFields : Nat → List (String × Json) → List Char → Option (Json × List Char)
  | 0, _, _ => none
  | fuel + 1, before, cs =>
    match skipBlanks cs with
    | '"' :: afterQuote =>
      match readChars (afterQuote.length + 1) [] afterQuote with
      | none => none
      | some (key, afterKey) =>
        match skipBlanks afterKey with
        | ':' :: afterColon =>
          match readValue fuel afterColon with
          | none => none
          | some (value, rest) =>
            let fields := Bindings.set before key value
            match skipBlanks rest with
            | ',' :: more => readFields fuel fields more
            | '\x7d' :: last => some (.object fields, last)
            | _ => none
        | _ => none
    | _ => none

end

/-- Blanks in front of a document do not matter. -/
theorem readValue_congr (fuel : Nat) {cs ds : List Char} (h : skipBlanks cs = skipBlanks ds) :
    readValue fuel cs = readValue fuel ds := by
  cases fuel with
  | zero => rw [readValue, readValue]
  | succ fuel => rw [readValue, readValue, h]

/-- The document that a text is, if it is one. -/
def read? (s : String) : Option Json :=
  let cs := s.toList
  match readValue (2 * cs.length + 2) cs with
  | some (j, rest) => if (skipBlanks rest).isEmpty then some j else none
  | none => none

end AchievementLang.Json

import AchievementLang.Text.Case
import AchievementLang.Wire.Reading
import AchievementLang.Wire.Trigger
import AchievementLang.Wire.Value

/-!
# Readers of fields, triggers and values

Reading is more generous than writing: addresses may have any number of digits in either
case, size letters may be lower case or missing, a hit count may stand in parentheses, and
numbers may use the decimal digits of any script.
-/

namespace AchievementLang.Wire

namespace Reader

/-! ## Fields -/

/-- The size that a character stands for, in either case. -/
def sizeOf? (c : Char) : Option Size :=
  match Text.upperChar c with
  | [u] => Size.ofLetter? u
  | _ => none

/-- Reads the size of a reference. Old references have none and mean a word; their first
digit stays to be read. -/
def size : Reader Size
  | [] => stop (.unknownSize none) []
  | c :: rest =>
    match sizeOf? c with
    | some s => .ok (s, rest)
    | none =>
      if Text.isHexDigit c then .ok (.word, c :: rest)
      else stop (.unknownSize (some c)) (c :: rest)

/-- Reads an address: digits of base sixteen, as many as there are. -/
def address : Reader Word := fun cs =>
  let run := cs.takeWhile Text.isHexDigit
  let rest := cs.dropWhile Text.isHexDigit
  if run.isEmpty then stop .expectedAddress cs
  else if h : Text.hexValue run < wordCount then .ok (⟨Text.hexValue run, h⟩, rest)
  else stop .addressOutOfRange rest

/-- Reads what follows the `0x` of a reference. -/
def reference (kind : FieldKind) : Reader Field := fun cs =>
  match size cs with
  | .error e => .error e
  | .ok (s, afterSize) =>
    match address afterSize with
    | .error e => .error e
    | .ok (a, rest) => .ok (⟨kind, some s, a⟩, rest)

/-- Reads a literal. -/
def literal : Reader Field := fun cs =>
  match digits cs with
  | .error e => .error e
  | .ok ((_, n), rest) =>
    if h : n < wordCount then .ok (.literal ⟨n, h⟩, rest) else stop .valueOutOfRange rest

/-- Reads a field. -/
def field : Reader Field
  | '0' :: 'x' :: rest => reference .memory rest
  | 'd' :: '0' :: 'x' :: rest => reference .previous rest
  | 'd' :: rest => stop .expectedMemory rest
  | cs => literal cs

/-! ## Requirements and triggers -/

/-- Reads a relation; the longer spelling wins. -/
def relation : List Char → Option Relation × List Char
  | '!' :: '=' :: rest => (some .ne, rest)
  | '<' :: '=' :: rest => (some .le, rest)
  | '>' :: '=' :: rest => (some .ge, rest)
  | '=' :: rest => (some .eq, rest)
  | '<' :: rest => (some .lt, rest)
  | '>' :: rest => (some .gt, rest)
  | cs => (none, cs)

/-- Reads a count up to the character that closes it. -/
def closedCount (close : Char) : Reader Nat := fun cs =>
  match digits cs with
  | .error e => .error e
  | .ok ((_, n), rest) =>
    match expect close rest with
    | .error e => .error e
    | .ok ((), last) => .ok (n, last)

/-- Reads a hit count between points or in parentheses, zero if there is none. -/
def hits : Reader Nat
  | '.' :: rest => closedCount '.' rest
  | '(' :: rest => closedCount ')' rest
  | cs => .ok (0, cs)

/-- Reads the flag of a row, if there is one. -/
def flag : Reader Flag
  | c :: ':' :: rest =>
    match Flag.ofLetter? c with
    | some f => .ok (f, rest)
    | none => stop (.unknownFlag c) (c :: ':' :: rest)
  | cs => .ok (.none, cs)

/-- Reads the comparison of a row with the given flag and left side; only accumulators do
without one. -/
def comparison (f : Flag) (left : Field) : Reader Requirement := fun cs =>
  match relation cs with
  | (none, rest) =>
    if f.isAccumulator then .ok ({ left := left, flag := f }, rest)
    else stop .expectedComparison rest
  | (some op, rest) =>
    match field rest with
    | .error e => .error e
    | .ok (right, afterRight) =>
      match hits afterRight with
      | .error e => .error e
      | .ok (n, last) =>
        .ok ({ left := left, operator := some op, right := right, hits := n, flag := f }, last)

/-- Reads one row. -/
def requirement : Reader Requirement := fun cs =>
  match flag cs with
  | .error e => .error e
  | .ok (f, afterFlag) =>
    match field afterFlag with
    | .error e => .error e
    | .ok (left, rest) => comparison f left rest

/-- Reads the rows of a group. A group is empty where the text ends or an alternate starts. -/
def group : Reader Group
  | [] => .ok ([], [])
  | 'S' :: rest => .ok ([], 'S' :: rest)
  | cs => joined '_' requirement cs

/-- Reads a whole trigger. -/
def trigger (cs : List Char) : Except Stop Trigger :=
  match group cs with
  | .error e => .error e
  | .ok (core, rest) =>
    match toEnd 'S' group rest with
    | .error e => .error e
    | .ok alternates => .ok ⟨core, alternates⟩

/-! ## Values -/

/-- The number with the given sign, whole part and decimals. -/
def decimalNumber (negative : Bool) (whole : Nat) (decimals : List Char × Nat) : Rat :=
  let unit := Nat.pow 10 decimals.1.length
  let size := mkRat (whole * unit + decimals.2 : Nat) unit
  if negative then -size else size

/-- Reads a number without sign. A point belongs to it only if a digit follows. -/
def unsignedNumber (negative : Bool) : Reader Rat := fun cs =>
  match digits cs with
  | .error e => .error e
  | .ok ((_, whole), rest) =>
    match rest with
    | '.' :: c :: more =>
      if Text.isDigit c then
        match digits (c :: more) with
        | .error e => .error e
        | .ok (decimals, last) => .ok (decimalNumber negative whole decimals, last)
      else .ok (decimalNumber negative whole ([], 0), rest)
    | _ => .ok (decimalNumber negative whole ([], 0), rest)

/-- Reads a number with an optional minus sign. -/
def number : Reader Rat
  | '-' :: rest => unsignedNumber true rest
  | cs => unsignedNumber false cs

/-- Reads the multiplier of a field, one if there is none. -/
def multiplied (f : Field) : Reader Term
  | '*' :: rest =>
    match number rest with
    | .error e => .error e
    | .ok (x, last) => .ok (⟨some f, x⟩, last)
  | cs => .ok (⟨some f, 1⟩, cs)

/-- Reads one term. -/
def term : Reader Term
  | 'v' :: rest =>
    match number rest with
    | .error e => .error e
    | .ok (x, last) => .ok (.constant x, last)
  | cs =>
    match field cs with
    | .error e => .error e
    | .ok (f, rest) => multiplied f rest

/-- Reads a whole value. -/
def value (cs : List Char) : Except Stop Value :=
  match joined '_' term cs with
  | .error e => .error e
  | .ok (first, rest) =>
    match toEnd '$' (joined '_' term) rest with
    | .error e => .error e
    | .ok more => .ok (first :: more)

/-- Reads a whole field. -/
def wholeField (cs : List Char) : Except Stop Field :=
  match field cs with
  | .error e => .error e
  | .ok (f, []) => .ok f
  | .ok (_, c :: rest) => .error (.malformed (.afterOperand c) (rest.length + 1))

end Reader

/-! ## Reading texts -/

/-- Reads the characters of a text that starts at the given position. -/
def readAt {α : Type} (offset : Nat) (reader : List Char → Except Stop α) (cs : List Char) :
    Except ReadFailure α :=
  match reader cs with
  | .ok a => .ok a
  | .error e => .error (e.at offset cs.length)

/-- The field written by a text. -/
def readField (s : String) : Except ReadFailure Field := readAt 0 Reader.wholeField s.toList

/-- The trigger written by a text. -/
def readTrigger (s : String) : Except ReadFailure Trigger := readAt 0 Reader.trigger s.toList

/-- The value written by a text; `offset` is where the text starts in a larger one. -/
def readValue (s : String) (offset : Nat := 0) : Except ReadFailure Value :=
  readAt offset Reader.value s.toList

end AchievementLang.Wire

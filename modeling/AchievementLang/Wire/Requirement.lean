import AchievementLang.Relation
import AchievementLang.Wire.Field

/-!
# Requirements

One row of a trigger: a comparison of two operands, or an operand that only feeds the next
row, with the flag and hit count that tell the runtime how to use it.
-/

namespace AchievementLang.Wire

/-- What the runtime does with a row. -/
inductive Flag
  | none
  | resetIf
  | pauseIf
  /-- Adds the left operand to the next comparison. -/
  | addSource
  /-- Subtracts the left operand from the next comparison. -/
  | subSource
  | addHits
  deriving DecidableEq, Repr

namespace Flag

/-- The letter in front of a flagged row. -/
def letter? : Flag → Option Char
  | .none => Option.none
  | .resetIf => some 'R'
  | .pauseIf => some 'P'
  | .addSource => some 'A'
  | .subSource => some 'B'
  | .addHits => some 'C'

/-- The flag with the given letter. -/
def ofLetter? : Char → Option Flag
  | 'R' => some .resetIf
  | 'P' => some .pauseIf
  | 'A' => some .addSource
  | 'B' => some .subSource
  | 'C' => some .addHits
  | _ => Option.none

/-- The row only feeds the next comparison and needs none of its own. -/
def isAccumulator : Flag → Bool
  | .addSource | .subSource => true
  | _ => false

end Flag

/-- The spelling of a relation on the wire. -/
def relationToken : Relation → String
  | .eq => "="
  | .ne => "!="
  | .lt => "<"
  | .le => "<="
  | .gt => ">"
  | .ge => ">="

/-- How literals are shown to readers. -/
inductive NumberFormat
  | decimal
  | hexadecimal
  deriving DecidableEq, Repr

/-- A field with literals in the given format. -/
def Field.displayAs (format : NumberFormat) (f : Field) : String :=
  match f.kind, format with
  | .literal, .hexadecimal => "0x" ++ String.ofList (Text.upperHexPadded 2 f.value)
  | _, _ => f.display

/-- One row of a trigger. -/
structure Requirement where
  left : Field := {}
  operator : Option Relation := none
  right : Field := {}
  hits : Nat := 0
  flag : Flag := .none
  deriving DecidableEq, Repr

/-- Texts noted for addresses. -/
abbrev Notes := List (Int × String)

/-- The text noted for an address. -/
def Notes.at? (notes : Notes) (address : Word) : Option String :=
  notes.lookup (address.val : Int)

namespace Requirement

/-- The row on the wire. -/
def wire (r : Requirement) : String :=
  (match r.flag.letter? with | some c => String.ofList [c, ':'] | none => "") ++
  r.left.wire ++
  (match r.operator with | some op => relationToken op ++ r.right.wire | none => "") ++
  (if 0 < r.hits then "." ++ toString r.hits ++ "." else "")

/-- The comparison without its flag and hit count, for readers. -/
def displayComparison (format : NumberFormat) (r : Requirement) : String :=
  r.left.displayAs format ++
  match r.operator with
  | some op => " " ++ op.symbol ++ " " ++ r.right.displayAs format
  | none => ""

/-- A text as the argument of `once` or `repeated`, as the hit count asks. -/
def displayHits (hits : Nat) (text : String) : String :=
  if hits = 0 then text
  else if hits = 1 then "once(" ++ text ++ ")"
  else "repeated(" ++ toString hits ++ ", " ++ text ++ ")"

/-- A text under the flag of a row. -/
def displayFlag (flag : Flag) (text : String) : String :=
  match flag with
  | .none => text
  | .resetIf => "never(" ++ text ++ ")"
  | .pauseIf => "unless(" ++ text ++ ")"
  | .addSource => "AddSource " ++ text
  | .subSource => "SubSource " ++ text
  | .addHits => "AddHits " ++ text

/-- The row for readers: script text where scripts can say it. -/
def display (format : NumberFormat) (r : Requirement) : String :=
  displayFlag r.flag (displayHits r.hits (r.displayComparison format))

/-- The right side reads no address of its own: it is a literal, or the value that the left
address had before. -/
def rightIsKnown (r : Requirement) : Bool :=
  r.right.kind == .literal || (r.right.kind == .previous && r.right.value == r.left.value)

/-- One line for an address that is read and has a note. -/
def noteLine? (notes : Notes) (f : Field) : Option String :=
  if f.isMemory then
    (notes.at? f.value).map fun note =>
      "0x" ++ String.ofList (Text.hexPadded 6 f.value) ++ ":" ++ note
  else none

/-- The notes for the addresses that the row reads. Where only the left address is in
question its note is given as it is; otherwise each noted address has a line. -/
def notesText (r : Requirement) (notes : Notes) : String :=
  if r.rightIsKnown then (notes.at? r.left.value).getD ""
  else "\n".intercalate ([r.left, r.right].filterMap (noteLine? notes))

end Requirement

end AchievementLang.Wire

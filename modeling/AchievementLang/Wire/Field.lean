import AchievementLang.Text.Hex

/-!
# Operands of a requirement

An operand is a memory reference, the previous value of one, or a literal. Its wire form is
what the achievement runtime reads: a literal in decimal, an address as `0x`, a letter for
the size and at least six digits of base sixteen, with `d` in front for a previous value.
-/

namespace AchievementLang.Wire

/-- The number of words: two to the power of 32. -/
abbrev wordCount : Nat := 4294967296

/-- What literals and addresses range over: the unsigned numbers of 32 bits. -/
abbrev Word := Fin wordCount

/-- The least word. -/
def Word.zero : Word := ⟨0, by decide⟩

/-- The word of a truth value: one or zero. -/
def Word.ofBool (b : Bool) : Word := if b then ⟨1, by decide⟩ else .zero

/-- The word of a number in range. -/
def Word.ofInt? (n : Int) : Option Word :=
  if h : 0 ≤ n ∧ n.toNat < wordCount then some ⟨n.toNat, h.2⟩ else none

theorem Word.val_of_ofInt? {n : Int} {w : Word} (h : Word.ofInt? n = some w) :
    (w.val : Int) = n := by
  simp only [ofInt?] at h
  split at h
  · cases h
    exact Int.toNat_of_nonneg (by omega)
  · cases h

@[simp] theorem Word.ofInt?_val (w : Word) : Word.ofInt? (w.val : Int) = some w := by
  simp [ofInt?, w.isLt]

/-- How much a memory reference reads from its address. -/
inductive Size
  /-- One bit of the byte, counted from the least significant. -/
  | bit (index : Fin 8)
  /-- The four less significant bits. -/
  | lowNibble
  /-- The four more significant bits. -/
  | highNibble
  | byte
  /-- Two bytes, least significant first. -/
  | word
  /-- Four bytes, least significant first. -/
  | dword
  deriving DecidableEq, Repr

namespace Size

/-- Every size. -/
def all : List Size :=
  [.bit 0, .bit 1, .bit 2, .bit 3, .bit 4, .bit 5, .bit 6, .bit 7,
   .lowNibble, .highNibble, .byte, .word, .dword]

/-- The character for the size on the wire. -/
def letter : Size → Char
  | .bit 0 => 'M'
  | .bit 1 => 'N'
  | .bit 2 => 'O'
  | .bit 3 => 'P'
  | .bit 4 => 'Q'
  | .bit 5 => 'R'
  | .bit 6 => 'S'
  | .bit 7 => 'T'
  | .lowNibble => 'L'
  | .highNibble => 'U'
  | .byte => 'H'
  | .word => ' '
  | .dword => 'X'

/-- The size with the given character. -/
def ofLetter? (c : Char) : Option Size := all.find? (·.letter == c)

/-- The name of the size in scripts. -/
def name : Size → String
  | .bit 0 => "bit0"
  | .bit 1 => "bit1"
  | .bit 2 => "bit2"
  | .bit 3 => "bit3"
  | .bit 4 => "bit4"
  | .bit 5 => "bit5"
  | .bit 6 => "bit6"
  | .bit 7 => "bit7"
  | .lowNibble => "low4"
  | .highNibble => "high4"
  | .byte => "byte"
  | .word => "word"
  | .dword => "dword"

end Size

/-- What an operand refers to. -/
inductive FieldKind
  /-- Nothing: the right side of a row without a comparison. -/
  | none
  /-- The memory at an address. -/
  | memory
  /-- The memory at an address, as it was in the frame before. -/
  | previous
  /-- The value itself. -/
  | literal
  deriving DecidableEq, Repr

/-- One side of a requirement. For memory, `value` is the address and `size` what is read
there; a literal has no use for a size. -/
structure Field where
  kind : FieldKind := .none
  size : Option Size := Option.none
  value : Word := .zero
  deriving DecidableEq, Repr

namespace Field

/-- The memory at an address. -/
def memory (size : Size) (address : Word) : Field := ⟨.memory, some size, address⟩

/-- The memory at an address in the frame before. -/
def previous (size : Size) (address : Word) : Field := ⟨.previous, some size, address⟩

/-- A literal. -/
def literal (value : Word) : Field := ⟨.literal, none, value⟩

/-- The field reads memory, now or in the frame before. -/
def isMemory (f : Field) : Bool := f.kind == .memory || f.kind == .previous

/-- The field for readers: script text, but for operands without size. -/
def display (f : Field) : String :=
  let access := ((f.size.map Size.name).getD "") ++ "(0x" ++
    String.ofList (Text.upperHexPadded 6 f.value) ++ ")"
  match f.kind with
  | .none => "none"
  | .literal => toString f.value.val
  | .memory => access
  | .previous => "prev(" ++ access ++ ")"

/-- The field on the wire. -/
def wire (f : Field) : String :=
  let access := "0x" ++ String.ofList ((f.size.map Size.letter).toList ++
    Text.hexPadded 6 f.value)
  match f.kind with
  | .literal => toString f.value.val
  | .previous => "d" ++ access
  | .memory | .none => access

end Field

end AchievementLang.Wire

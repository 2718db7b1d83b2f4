import AchievementLang.Text.Digit

/-!
# Reading wire text

A reader takes characters from the front of a text and gives back the rest. Where it stops is
told by the number of characters left, so readers need not know where in a larger text they
are; `Stop.at` turns that number into a position.
-/

namespace AchievementLang.Wire

/-- What is wrong with a text that cannot be read. -/
inductive Flaw
  /-- A field was read, but more follows. -/
  | afterOperand (found : Char)
  | expected (token : String) (found : Option Char)
  | unknownFlag (found : Char)
  | expectedComparison
  | expectedNumber
  | unknownSize (found : Option Char)
  | expectedAddress
  | addressOutOfRange
  /-- The `d` of a previous value stands before something else than memory. -/
  | expectedMemory
  | valueOutOfRange
  /-- A leaderboard definition does not start with its start section. -/
  | expectedStart
  | duplicateSection (key : String)
  | missingSection (key : String)
  deriving DecidableEq, Repr

/-- What is wrong, in words. -/
def Flaw.message : Flaw → String
  | .afterOperand c => s!"Unexpected '{c}' after operand"
  | .expected token none => s!"Expected '{token}', found 'end of input'"
  | .expected token (some c) => s!"Expected '{token}', found '{c}'"
  | .unknownFlag c => s!"Unknown requirement flag '{c}'"
  | .expectedComparison => "Expected comparison operator"
  | .expectedNumber => "Expected number"
  | .unknownSize none => "Unknown size character ''"
  | .unknownSize (some c) => s!"Unknown size character '{c}'"
  | .expectedAddress => "Expected address"
  | .addressOutOfRange => "Address out of range"
  | .expectedMemory => "Expected memory reference after 'd'"
  | .valueOutOfRange => "Value out of range"
  | .expectedStart => "Expected 'STA:'"
  | .duplicateSection key => s!"Duplicate '{key}:' section"
  | .missingSection key => s!"Missing '{key}:' section"

/-- A text that is not what it should be. -/
structure ReadError where
  flaw : Flaw
  /-- Characters before the place where reading stopped. -/
  position : Nat
  deriving DecidableEq, Repr

/-- Why a text could not be read. -/
inductive ReadFailure
  | malformed (e : ReadError)
  /-- A run of digits some of which have no place value. -/
  | valueless (digits : String)
  deriving DecidableEq, Repr

/-- Why a reader stopped, with the number of characters left. -/
inductive Stop
  | malformed (flaw : Flaw) (left : Nat)
  | valueless (digits : String)
  deriving DecidableEq, Repr

/-- The failure seen from outside: `size` is the length of the whole text and `offset` the
position of its first character. -/
def Stop.at (offset size : Nat) : Stop → ReadFailure
  | .malformed flaw left => .malformed ⟨flaw, offset + (size - left)⟩
  | .valueless digits => .valueless digits

/-- Takes characters from the front of a text. -/
abbrev Reader (α : Type) := List Char → Except Stop (α × List Char)

namespace Reader

variable {α : Type}

/-- Stops here. -/
def stop (flaw : Flaw) (rest : List Char) : Except Stop (α × List Char) :=
  .error (.malformed flaw rest.length)

/-- Reads the character `c`, which errors call `token`. -/
def expect (c : Char) : Reader Unit
  | d :: rest => if d = c then .ok ((), rest) else stop (.expected c.toString (some d)) (d :: rest)
  | [] => stop (.expected c.toString none) []

/-- Reads one digit or more. -/
def digits : Reader (List Char × Nat) := fun cs =>
  match cs.takeWhile Text.isDigit with
  | [] => stop .expectedNumber cs
  | run =>
    match Text.decimalValue? run with
    | some n => .ok ((run, n), cs.dropWhile Text.isDigit)
    | none => .error (.valueless (String.ofList run))

/-- Reads items as long as the separator leads another one. An item takes nothing away from
what stands before it, which the comparison of lengths states. -/
def led (separator : Char) (item : Reader α) (cs : List Char) :
    Except Stop (List α × List Char) :=
  match cs with
  | [] => .ok ([], [])
  | c :: rest =>
    if c = separator then
      match item rest with
      | .error e => .error e
      | .ok (a, after) =>
        if _h : after.length ≤ rest.length then
          match led separator item after with
          | .error e => .error e
          | .ok (more, last) => .ok (a :: more, last)
        else .ok ([a], after)
    else .ok ([], c :: rest)
termination_by cs.length
decreasing_by simp only [List.length_cons]; omega

/-- Reads one item or more, joined by the separator. -/
def joined (separator : Char) (item : Reader α) : Reader (List α) := fun cs =>
  match item cs with
  | .error e => .error e
  | .ok (a, rest) =>
    match led separator item rest with
    | .error e => .error e
    | .ok (more, last) => .ok (a :: more, last)

/-- Reads items each led by the separator until the text ends. -/
def toEnd (separator : Char) (item : Reader α) (cs : List Char) : Except Stop (List α) :=
  match led separator item cs with
  | .error e => .error e
  | .ok (items, []) => .ok items
  | .ok (_, c :: rest) =>
    .error (.malformed (.expected separator.toString (some c)) (rest.length + 1))

end Reader

end AchievementLang.Wire

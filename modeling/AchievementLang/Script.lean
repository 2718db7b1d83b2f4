import AchievementLang.Grammar.Parser
import AchievementLang.Text.Blank
import AchievementLang.Text.Digit

/-!
# Scripts

A script is its statements together with what its header says. The header is the block of
line comments at the top: the first of them is the title of the game, and one of the form
`#ID = number` gives the game's number.
-/

namespace AchievementLang

/-- A script. -/
structure Script where
  statements : List Expr := []
  title : Option String := none
  gameId : Option Int := none

namespace Script

/-! ## The header -/

/-- The letters that may stand for the capital `I` of the mark; two of them are dotted and
dotless variants. -/
def marksI (c : Char) : Bool := c = 'I' || c = 'i' || c = 'İ' || c = 'ı'

/-- The text after `#ID`, in any case. -/
def afterMark? : List Char → Option (List Char)
  | '#' :: i :: d :: rest => if marksI i && (d = 'D' || d = 'd') then some rest else none
  | _ => none

/-- The number that a comment gives, without its slashes. Any text may follow the number. -/
def numberIn? (comment : List Char) : Option Int :=
  match afterMark? (Text.trimLeft Text.isBlank comment) with
  | none => none
  | some rest =>
    match Text.trimLeft Text.isBlank rest with
    | '=' :: more =>
      let digits := (Text.trimLeft Text.isBlank more).takeWhile
        fun c => (Text.decimalDigit? c).isSome
      if digits.isEmpty then none else (Text.decimalValue? digits).map fun n => (n : Int)
    | _ => none

/-- What a header says. -/
structure Header where
  title : Option String := none
  gameId : Option Int := none

/-- The header after one more comment. The first comment without a number is the title; of
several numbers the last counts. -/
def Header.add (h : Header) (comment : List Char) : Header :=
  match numberIn? comment with
  | some n => { h with gameId := some n }
  | none =>
    match h.title with
    | none => { h with title := some (String.ofList (Text.trim comment)) }
    | some _ => h

/-- The comments at the top of the lines, without their slashes; empty lines do not end them. -/
def topComments : List (List Char) → List (List Char)
  | [] => []
  | line :: rest =>
    match Text.trim line with
    | [] => topComments rest
    | '/' :: '/' :: comment => comment :: topComments rest
    | _ => []

/-- The header of a script. -/
def header (cs : List Char) : Header := (topComments (Text.lines cs)).foldl Header.add {}

/-! ## Declarations -/

mutual

/-- The first declaration, inner ones before the one that holds them, in which `...` is not
the last parameter. -/
def misplacedEllipsis? : Expr → Option Fault
  | .declare f params _ body loc =>
    match misplacedEllipsisIn? body with
    | some fault => some fault
    | none =>
      if params.dropLast.contains ellipsis then some ⟨.ellipsisNotLastIn f, loc⟩ else none
  | _ => none

/-- The first such declaration among statements. -/
def misplacedEllipsisIn? : List Expr → Option Fault
  | [] => none
  | e :: rest =>
    match misplacedEllipsis? e with
    | some fault => some fault
    | none => misplacedEllipsisIn? rest

end

/-! ## Parsing -/

/-- The script written by a text. -/
def parse (text : String) : Except Fault Script :=
  match Grammar.parseStatements text.toList with
  | .error e => .error e
  | .ok statements =>
    match misplacedEllipsisIn? statements with
    | some fault => .error fault
    | none =>
      let h := header text.toList
      .ok { statements := statements, title := h.title, gameId := h.gameId }

end Script

end AchievementLang

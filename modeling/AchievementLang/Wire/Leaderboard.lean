import AchievementLang.Wire.Reader

/-!
# Leaderboard definitions

A definition has four sections: what starts, cancels and submits an attempt, and the value
that is reported. They are led by `STA:`, `CAN:`, `SUB:` and `VAL:`, and joined by `::`.
A definition can be read back if each section can.
-/

namespace AchievementLang.Wire

/-- The sections of a definition. -/
inductive SectionKey
  | start | cancel | submit | value
  deriving DecidableEq, Repr

namespace SectionKey

/-- Every section, in the order in which they are written. -/
def all : List SectionKey := [.start, .cancel, .submit, .value]

/-- The name in front of the colon. -/
def name : SectionKey → String
  | .start => "STA"
  | .cancel => "CAN"
  | .submit => "SUB"
  | .value => "VAL"

/-- The section whose name and colon start the text, and what follows them. -/
def lead? : List Char → Option (SectionKey × List Char)
  | 'S' :: 'T' :: 'A' :: ':' :: rest => some (.start, rest)
  | 'C' :: 'A' :: 'N' :: ':' :: rest => some (.cancel, rest)
  | 'S' :: 'U' :: 'B' :: ':' :: rest => some (.submit, rest)
  | 'V' :: 'A' :: 'L' :: ':' :: rest => some (.value, rest)
  | _ => none

end SectionKey

/-- A leaderboard's definition, with every section in wire form. -/
structure Definition where
  start : String := ""
  cancel : String := ""
  submit : String := ""
  value : String := ""
  deriving DecidableEq, Repr

/-- The definition on the wire. -/
def Definition.wire (d : Definition) : String :=
  "STA:" ++ d.start ++ "::CAN:" ++ d.cancel ++ "::SUB:" ++ d.submit ++ "::VAL:" ++ d.value

/-- A section found in a text. -/
structure Section where
  key : SectionKey
  /-- Where its lead starts, the colons that join it to the section before included. -/
  start : Nat
  /-- Where its body starts. -/
  bodyStart : Nat
  body : List Char
  deriving DecidableEq, Repr

/-- The text before the next section, and the sections from there on. The text starts at
`pos`; every lead but the one at the very start of a definition follows two colons. -/
def cutSections (pos : Nat) : List Char → List Char × List Section
  | ':' :: ':' :: a :: b :: c :: ':' :: rest =>
    match SectionKey.lead? [a, b, c, ':'] with
    | some (key, _) =>
      let (body, more) := cutSections (pos + 6) rest
      ([], ⟨key, pos, pos + 6, body⟩ :: more)
    | none =>
      let (body, more) := cutSections (pos + 1) (':' :: a :: b :: c :: ':' :: rest)
      (':' :: body, more)
  | c :: rest =>
    let (body, more) := cutSections (pos + 1) rest
    (c :: body, more)
  | [] => ([], [])

/-- The sections of a text that starts with one. -/
def leadingSections? (cs : List Char) : Option (List Section) :=
  match SectionKey.lead? cs with
  | some (key, rest) =>
    let (body, more) := cutSections 4 rest
    some (⟨key, 0, 4, body⟩ :: more)
  | none =>
    match cutSections 0 cs with
    | ([], found) => some found
    | (_ :: _, _) => none

/-- The sections of a definition; `none` if it does not start with its start section. -/
def sections? (cs : List Char) : Option (List Section) :=
  match leadingSections? cs with
  | some (first :: more) => if first.key = .start then some (first :: more) else none
  | _ => none

/-- The first section whose key an earlier one has. -/
def firstDuplicate? (seen : List SectionKey) : List Section → Option Section
  | [] => none
  | s :: rest => if s.key ∈ seen then some s else firstDuplicate? (s.key :: seen) rest

/-- The section with the key. -/
def findSection? (key : SectionKey) (ss : List Section) : Option Section :=
  ss.find? (·.key == key)

/-- Checks that a section can be read on its own. -/
def Section.check (s : Section) : Except ReadFailure Unit :=
  match s.key with
  | .value => (readAt s.bodyStart Reader.value s.body).map fun _ => ()
  | _ => (readAt s.bodyStart Reader.trigger s.body).map fun _ => ()

/-- Checks the sections with the given keys, in this order. -/
def checkSections (ss : List Section) : List SectionKey → Except ReadFailure Unit
  | [] => .ok ()
  | key :: rest =>
    match findSection? key ss with
    | none => checkSections ss rest
    | some s =>
      match s.check with
      | .error e => .error e
      | .ok () => checkSections ss rest

/-- The body of a section. -/
def bodyOf (ss : List Section) (key : SectionKey) : String :=
  ((findSection? key ss).map fun s => String.ofList s.body).getD ""

/-- The definition written by a text. Each section must be there once and be readable. -/
def readDefinition (text : String) : Except ReadFailure Definition :=
  match sections? text.toList with
  | none => .error (.malformed ⟨.expectedStart, 0⟩)
  | some ss =>
    match firstDuplicate? [] ss with
    | some s => .error (.malformed ⟨.duplicateSection s.key.name, s.start⟩)
    | none =>
      match SectionKey.all.find? (fun key => (findSection? key ss).isNone) with
      | some key => .error (.malformed ⟨.missingSection key.name, text.length⟩)
      | none =>
        match checkSections ss SectionKey.all with
        | .error e => .error e
        | .ok () =>
          .ok { start := bodyOf ss .start, cancel := bodyOf ss .cancel,
                submit := bodyOf ss .submit, value := bodyOf ss .value }

end AchievementLang.Wire

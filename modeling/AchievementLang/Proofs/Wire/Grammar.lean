import AchievementLang.Proofs.Wire.Trigger

/-!
# The grammar of triggers

In ASCII, triggers are written by the grammar

    trigger = group {'S' group}
    group   = empty | row {'_' row}
    row     = [flag ':'] field op field [hits] | ('A' | 'B') ':' field
    field   = ['d'] '0x' [size] hexdigit+ | digit+
    hits    = '.' digit+ '.' | '(' digit+ ')'

where the numbers of fields are below `wordCount`, and flags, relations and sizes are written as
`Flag.letter?`, `relationToken` and `Size.letter` say, sizes in either case. A derivation in it is a
tree (`TriggerTree`), with the text that it derives and the trigger that this denotes.

The readers accept the texts of trees and nothing else, and give what a tree denotes
(`readTrigger_iff_exists_tree`). For this, the spellings are compared with the trees: what a tree
derives is a spelling of what it denotes (`TriggerTree.spelled`), and an ASCII spelling is derived
by a tree (`Trigger.Spelled.exists_tree`).

No text has two trees (`TriggerTree.chars_injective`). The readers show that: of two trees that
derive the start of one text, in front of what may follow them, both denote what is read there, and
so they end at the same place (`Splits`). It remains to compare trees that derive the same
characters and denote the same.
-/

namespace AchievementLang.Wire

/-! ## Derivations -/

/-- One or more digits. -/
@[ext]
structure Numeral where
  digits : List Char
  ne_nil : digits ≠ []
  isDigit : ∀ c ∈ digits, c.isDigit = true

/-- The number that the digits write. -/
def Numeral.value (n : Numeral) : Nat := Nat.ofDigitChars 10 n.digits 0

/-- One or more digits of base sixteen that write the number of a word. -/
@[ext]
structure HexNumeral where
  digits : List Char
  ne_nil : digits ≠ []
  isHexDigit : ∀ c ∈ digits, Text.isHexDigit c = true
  inRange : Text.hexValue digits < wordCount

def HexNumeral.value (a : HexNumeral) : Word := ⟨Text.hexValue a.digits, a.inRange⟩

/-- The letter of a size, in either case. -/
@[ext]
structure SizeMark where
  size : Size
  char : Char
  isLetter : char = size.letter ∨ char = size.letter.toLower

/-- Derivations of fields. -/
inductive FieldTree
  | reference (previous : Bool) (mark : Option SizeMark) (address : HexNumeral)
  | literal (n : Numeral) (inRange : n.value < wordCount)

namespace FieldTree

/-- The text that is derived. -/
def chars : FieldTree → List Char
  | .reference previous mark address =>
    (if previous then ['d'] else []) ++ '0' :: 'x' ::
      ((mark.map SizeMark.char).toList ++ address.digits)
  | .literal n _ => n.digits

/-- The field that is denoted. Without the mark of a size it is a word. -/
def field : FieldTree → Field
  | .reference previous mark address =>
    ⟨if previous then .previous else .memory, some ((mark.map SizeMark.size).getD .word),
      address.value⟩
  | .literal n h => .literal ⟨n.value, h⟩

end FieldTree

/-- Derivations of hit counts. -/
inductive HitsTree
  | pointed (n : Numeral)
  | enclosed (n : Numeral)

namespace HitsTree

def chars : HitsTree → List Char
  | .pointed n => '.' :: (n.digits ++ ['.'])
  | .enclosed n => '(' :: (n.digits ++ [')'])

def count : HitsTree → Nat
  | .pointed n | .enclosed n => n.value

end HitsTree

/-- The text of a flag: its letter and a colon, or nothing. -/
def flagChars (f : Flag) : List Char :=
  match f.letter? with
  | some c => [c, ':']
  | none => []

/-- Derivations of rows. -/
inductive RowTree
  | compared (flag : Flag) (left : FieldTree) (op : Relation) (right : FieldTree)
      (hits : Option HitsTree)
  | accumulated (flag : Flag) (isAccumulator : flag.isAccumulator = true) (left : FieldTree)

namespace RowTree

def chars : RowTree → List Char
  | .compared flag left op right hits =>
    flagChars flag ++ (left.chars ++ ((relationToken op).toList ++
      (right.chars ++ (hits.map HitsTree.chars).getD [])))
  | .accumulated flag _ left => flagChars flag ++ left.chars

/-- The row that is denoted. Without a hit count it counts none. -/
def row : RowTree → Requirement
  | .compared flag left op right hits =>
    { left := left.field, operator := some op, right := right.field,
      hits := (hits.map HitsTree.count).getD 0, flag := flag }
  | .accumulated flag _ left => { left := left.field, flag := flag }

end RowTree

/-- The text of a group: the rows with `_` between them. -/
def groupChars : List RowTree → List Char
  | [] => []
  | r :: rs => r.chars ++ rs.flatMap fun r => '_' :: r.chars

/-- Derivations of triggers. -/
structure TriggerTree where
  core : List RowTree
  alternates : List (List RowTree)

namespace TriggerTree

def chars (t : TriggerTree) : List Char :=
  groupChars t.core ++ t.alternates.flatMap fun g => 'S' :: groupChars g

def text (t : TriggerTree) : String := String.ofList t.chars

/-- The trigger that is denoted. -/
def trigger (t : TriggerTree) : Trigger :=
  ⟨t.core.map RowTree.row, t.alternates.map (List.map RowTree.row)⟩

end TriggerTree

/-! ## What is derived is a spelling -/

theorem Numeral.isSpelling (n : Numeral) : IsSpelling n.digits n.value :=
  ⟨n.ne_nil, Text.decimalValue?_eq_ofDigitChars n.isDigit⟩

theorem HexNumeral.spelled (a : HexNumeral) : a.value.Spelled a.digits :=
  ⟨a.ne_nil, a.isHexDigit, rfl⟩

theorem sizeOf?_toLower_letter (s : Size) : Reader.sizeOf? s.letter.toLower = some s := by
  cases s with
  | bit i => revert i; decide +kernel
  | _ => rfl

theorem SizeMark.sizeOf?_char (m : SizeMark) : Reader.sizeOf? m.char = some m.size := by
  obtain h | h := m.isLetter
  · rw [h, Field.sizeOf?_letter]
  · rw [h, sizeOf?_toLower_letter]

theorem spelled_mark (mark : Option SizeMark) :
    Size.Spelled (mark.map SizeMark.char).toList ((mark.map SizeMark.size).getD .word) := by
  cases mark with
  | none => exact .missing
  | some m => exact .mark m.sizeOf?_char

theorem FieldTree.spelled (t : FieldTree) : t.field.Spelled t.chars := by
  cases t with
  | reference previous mark address =>
    cases previous with
    | false => exact .memory (spelled_mark mark) address.spelled
    | true => exact .previous (spelled_mark mark) address.spelled
  | literal n h => exact .literal n.isSpelling h

theorem hitsSpelled (hits : Option HitsTree) :
    HitsSpelled ((hits.map HitsTree.chars).getD []) ((hits.map HitsTree.count).getD 0) := by
  cases hits with
  | none => exact .missing
  | some h =>
    cases h with
    | pointed n => exact .pointed n.isSpelling
    | enclosed n => exact .enclosed n.isSpelling

theorem RowTree.spelled (t : RowTree) : t.row.Spelled t.chars := by
  cases t with
  | compared flag left op right hits =>
    exact .compared (spelled_flagLetter flag) left.spelled right.spelled (hitsSpelled hits)
  | accumulated flag h left => exact .accumulated (spelled_flagLetter flag) h left.spelled

theorem spelled_groupChars (g : List RowTree) :
    Group.Spelled (groupChars g) (g.map RowTree.row) := by
  cases g with
  | nil => exact .inl ⟨rfl, rfl⟩
  | cons r rs => exact .inr ⟨_, _, _, _, rfl, rfl, r.spelled, .flatMap _ _ fun r _ => r.spelled⟩

/-- **What a tree derives is a spelling of what it denotes.** -/
theorem TriggerTree.spelled (t : TriggerTree) : t.trigger.Spelled t.chars :=
  ⟨_, _, rfl, spelled_groupChars t.core, .flatMap _ _ fun g _ => spelled_groupChars g⟩

/-! ## Spellings are derived -/

/-- Every character is below 128. -/
def IsAscii (cs : List Char) : Prop := ∀ c ∈ cs, c.toNat < 128

instance : DecidablePred IsAscii := fun cs =>
  List.decidableBAll (fun c : Char => c.toNat < 128) cs

@[simp]
theorem isAscii_append {t u : List Char} : IsAscii (t ++ u) ↔ IsAscii t ∧ IsAscii u := by
  simp [IsAscii, or_imp, forall_and]

@[simp]
theorem isAscii_cons {c : Char} {t : List Char} :
    IsAscii (c :: t) ↔ c.toNat < 128 ∧ IsAscii t := by
  simp [IsAscii]

theorem IsSpelling.exists_numeral {t : List Char} {n : Nat} (h : IsSpelling t n)
    (ht : IsAscii t) : ∃ m : Numeral, m.digits = t ∧ m.value = n := by
  have hdigit : ∀ c ∈ t, c.isDigit = true := fun c hc =>
    Text.isDigit_of_isSome_decimalDigit? (ht c hc) (Text.isSome_of_decimalValue? h.2 c hc)
  have hvalue := h.2
  rw [Text.decimalValue?_eq_ofDigitChars hdigit, Option.some.injEq] at hvalue
  exact ⟨⟨t, h.1, hdigit⟩, rfl, hvalue⟩

theorem Word.Spelled.exists_hexNumeral {t : List Char} {a : Word} (h : a.Spelled t) :
    ∃ m : HexNumeral, m.digits = t ∧ m.value = a :=
  ⟨⟨t, h.1, h.2.1, h.2.2 ▸ a.isLt⟩, rfl, Fin.ext h.2.2⟩

/-- The only ASCII characters that stand for sizes are their letters. -/
theorem isLetter_of_sizeOf? {c : Char} {s : Size} (hc : c.toNat < 128)
    (h : Reader.sizeOf? c = some s) : c = s.letter ∨ c = s.letter.toLower := by
  have all := Text.forall_ascii (p := fun c => ∀ s ∈ Size.ofLetter? c.toUpper,
    c = s.letter ∨ c = s.letter.toLower) (by decide +kernel) hc
  rw [Reader.sizeOf?_of_ascii hc] at h
  exact all s h

theorem Size.Spelled.exists_mark {t : List Char} {s : Size} (h : s.Spelled t) (ht : IsAscii t) :
    ∃ mark : Option SizeMark, (mark.map SizeMark.char).toList = t ∧
      (mark.map SizeMark.size).getD .word = s := by
  cases h with
  | missing => exact ⟨none, rfl, rfl⟩
  | @mark c s h => exact ⟨some ⟨s, c, isLetter_of_sizeOf? (ht c (by simp)) h⟩, rfl, rfl⟩

theorem Field.Spelled.exists_tree {t : List Char} {f : Field} (h : f.Spelled t)
    (ht : IsAscii t) : ∃ tree : FieldTree, tree.chars = t ∧ tree.field = f := by
  cases h with
  | literal hn hlt =>
    obtain ⟨n, rfl, rfl⟩ := hn.exists_numeral ht
    exact ⟨.literal n hlt, rfl, rfl⟩
  | memory hs ha =>
    obtain ⟨a, rfl, rfl⟩ := ha.exists_hexNumeral
    obtain ⟨mark, rfl, rfl⟩ := hs.exists_mark (by simp_all)
    exact ⟨.reference false mark a, rfl, rfl⟩
  | previous hs ha =>
    obtain ⟨a, rfl, rfl⟩ := ha.exists_hexNumeral
    obtain ⟨mark, rfl, rfl⟩ := hs.exists_mark (by simp_all)
    exact ⟨.reference true mark a, rfl, rfl⟩

theorem HitsSpelled.exists_tree {t : List Char} {n : Nat} (h : HitsSpelled t n)
    (ht : IsAscii t) : ∃ hits : Option HitsTree, (hits.map HitsTree.chars).getD [] = t ∧
      (hits.map HitsTree.count).getD 0 = n := by
  cases h with
  | missing => exact ⟨none, rfl, rfl⟩
  | pointed hn =>
    obtain ⟨n, rfl, rfl⟩ := hn.exists_numeral (by simp_all)
    exact ⟨some (.pointed n), rfl, rfl⟩
  | enclosed hn =>
    obtain ⟨n, rfl, rfl⟩ := hn.exists_numeral (by simp_all)
    exact ⟨some (.enclosed n), rfl, rfl⟩

theorem Flag.Spelled.eq_flagChars {t : List Char} {f : Flag} (h : f.Spelled t) :
    t = flagChars f := by
  cases h with
  | missing => rfl
  | letter h => rw [flagChars, h]

theorem Requirement.Spelled.exists_tree {t : List Char} {r : Requirement} (h : r.Spelled t)
    (ht : IsAscii t) : ∃ tree : RowTree, tree.chars = t ∧ tree.row = r := by
  cases h with
  | @compared _ _ _ _ f _ _ op _ hf hl hr hn =>
    simp only [isAscii_append] at ht
    obtain rfl := hf.eq_flagChars
    obtain ⟨left, rfl, rfl⟩ := hl.exists_tree ht.2.1
    obtain ⟨right, rfl, rfl⟩ := hr.exists_tree ht.2.2.2.1
    obtain ⟨hits, rfl, rfl⟩ := hn.exists_tree ht.2.2.2.2
    exact ⟨.compared f left op right hits, rfl, rfl⟩
  | @accumulated _ _ f _ hf hacc hl =>
    simp only [isAscii_append] at ht
    obtain rfl := hf.eq_flagChars
    obtain ⟨left, rfl, rfl⟩ := hl.exists_tree ht.2
    exact ⟨.accumulated f hacc left, rfl, rfl⟩

/-- If texts of items are derived, then a list of items is. -/
theorem Reader.LedBy.exists_trees {α β : Type} {sep : Char} {P : List Char → α → Prop}
    {chars : β → List Char} {value : β → α}
    (hP : ∀ t a, P t a → IsAscii t → ∃ b, chars b = t ∧ value b = a) {t : List Char}
    {as : List α} (h : LedBy sep P t as) (ht : IsAscii t) :
    ∃ bs : List β, (bs.flatMap fun b => sep :: chars b) = t ∧ bs.map value = as := by
  obtain ⟨ts, rfl, hts⟩ := h
  induction hts with
  | nil => exact ⟨[], rfl, rfl⟩
  | cons ha _ ih =>
    simp only [List.flatMap_cons, List.cons_append, isAscii_cons, isAscii_append] at ht
    obtain ⟨b, rfl, rfl⟩ := hP _ _ ha ht.2.1
    obtain ⟨bs, hbs, rfl⟩ := ih ht.2.2
    exact ⟨b :: bs, by simp [hbs], rfl⟩

theorem Group.Spelled.exists_trees {t : List Char} {g : Group} (h : g.Spelled t)
    (ht : IsAscii t) : ∃ trees, groupChars trees = t ∧ trees.map RowTree.row = g := by
  obtain ⟨rfl, rfl⟩ | ⟨u, v, r, more, rfl, rfl, hr, hmore⟩ := h
  · exact ⟨[], rfl, rfl⟩
  · rw [isAscii_append] at ht
    obtain ⟨tree, rfl, rfl⟩ := hr.exists_tree ht.1
    obtain ⟨trees, rfl, rfl⟩ := hmore.exists_trees (fun _ _ h => h.exists_tree) ht.2
    exact ⟨tree :: trees, rfl, rfl⟩

/-- **An ASCII spelling of a trigger is derived by a tree** that denotes the trigger. -/
theorem Trigger.Spelled.exists_tree {t : List Char} {a : Trigger} (h : a.Spelled t)
    (ht : IsAscii t) : ∃ tree : TriggerTree, tree.chars = t ∧ tree.trigger = a := by
  obtain ⟨core, alternates⟩ := a
  obtain ⟨u, v, rfl, hcore, halts⟩ := h
  rw [isAscii_append] at ht
  obtain ⟨g, rfl, rfl⟩ := hcore.exists_trees ht.1
  obtain ⟨gs, rfl, rfl⟩ := halts.exists_trees (fun _ _ h => h.exists_trees) ht.2
  exact ⟨⟨g, gs⟩, rfl, rfl⟩

/-! ## No text has two derivations -/

section Splits

variable {α β : Type} {chars : β → List Char} {value : β → α} {Follows : List Char → Prop}

/-- In front of what may follow, at most one tree derives the start of a text. -/
def Splits (chars : β → List Char) (Follows : List Char → Prop) : Prop :=
  ∀ a b r r', Follows r → Follows r' → chars a ++ r = chars b ++ r' → a = b ∧ r = r'

/-- A reader of what trees denote finds where they end. -/
theorem splits_of_reads {item : Reader α}
    (hread : ∀ b r, Follows r → item (chars b ++ r) = .ok (value b, r))
    (hinj : ∀ a b, chars a = chars b → value a = value b → a = b) : Splits chars Follows := by
  intro a b r r' hr hr' e
  have ha := hread a r hr
  rw [e, hread b r' hr'] at ha
  obtain ⟨hvalue, rfl⟩ : value b = value a ∧ r' = r := by simpa using ha
  exact ⟨hinj a b (List.append_cancel_right e) hvalue.symm, rfl⟩

/-- Lists are told apart if their items are. -/
theorem Splits.led (h : Splits chars Follows) (sep : Char) (hsep : ∀ cs, Follows (sep :: cs)) :
    Splits (fun bs : List β => bs.flatMap fun b => sep :: chars b)
      fun r => Follows r ∧ r.head? ≠ some sep := by
  intro as
  have follows (bs : List β) {r : List Char} (hr : Follows r) :
      Follows ((bs.flatMap fun b => sep :: chars b) ++ r) := by
    cases bs with
    | nil => exact hr
    | cons => exact hsep _
  induction as with
  | nil =>
    rintro (_ | ⟨b, bs⟩) r r' hr hr' e
    · exact ⟨rfl, e⟩
    · exact absurd (by simp_all) hr.2
  | cons a as ih =>
    rintro (_ | ⟨b, bs⟩) r r' hr hr' e
    · exact absurd (by simp [← show _ = r' from e]) hr'.2
    · simp only [List.flatMap_cons, List.cons_append, List.append_assoc, List.cons.injEq,
        true_and] at e
      obtain ⟨rfl, e'⟩ := h a b _ _ (follows as hr.1) (follows bs hr'.1) e
      obtain ⟨rfl, rfl⟩ := ih bs r r' hr hr' e'
      exact ⟨rfl, rfl⟩

end Splits

/-- The mark of a size is no digit of the address. -/
theorem mark_address_injective {mark mark' : Option SizeMark} {a a' : HexNumeral}
    (h : (mark.map SizeMark.char).toList ++ a.digits =
      (mark'.map SizeMark.char).toList ++ a'.digits) : mark = mark' ∧ a = a' := by
  have first {m : SizeMark} {b b' : HexNumeral} (e : m.char :: b'.digits = b.digits) : False := by
    have hex := Reader.sizeOf?_hexDigit (b.isHexDigit m.char (by simp [← e]))
    rw [m.sizeOf?_char] at hex
    cases hex
  cases mark with
  | none =>
    cases mark' with
    | none => exact ⟨rfl, HexNumeral.ext h⟩
    | some m => exact (first h.symm).elim
  | some m =>
    cases mark' with
    | none => exact (first h).elim
    | some m' =>
      obtain ⟨hc, hd⟩ := List.cons.inj h
      have hsize := m.sizeOf?_char
      rw [hc, m'.sizeOf?_char, Option.some.injEq] at hsize
      exact ⟨congrArg some (SizeMark.ext hsize.symm hc), HexNumeral.ext hd⟩

theorem FieldTree.chars_injective : Function.Injective FieldTree.chars := by
  have literal_ne (n : Numeral) (p : Bool) (cs : List Char) :
      n.digits ≠ (if p then ['d'] else []) ++ '0' :: 'x' :: cs := fun e =>
    absurd (n.isDigit 'x' (by rw [e]; simp)) (by decide)
  rintro (⟨p, mark, a⟩ | ⟨n, h⟩) (⟨p', mark', a'⟩ | ⟨n', h'⟩) e
  · obtain rfl : p = p' := by cases p <;> cases p' <;> simp_all [FieldTree.chars]
    have hsuffix : (mark.map SizeMark.char).toList ++ a.digits =
        (mark'.map SizeMark.char).toList ++ a'.digits := by simpa [FieldTree.chars] using e
    obtain ⟨rfl, rfl⟩ := mark_address_injective hsuffix
    rfl
  · exact absurd e.symm (literal_ne n' p _)
  · exact absurd e (literal_ne n p' _)
  · obtain rfl := Numeral.ext e
    rfl

theorem splits_fieldTree : Splits FieldTree.chars Reader.FieldEnd :=
  splits_of_reads (fun t _ h => Reader.field_spelled t.spelled h)
    fun _ _ e _ => FieldTree.chars_injective e

theorem hitsChars_injective {hits hits' : Option HitsTree}
    (h : (hits.map HitsTree.chars).getD [] = (hits'.map HitsTree.chars).getD []) :
    hits = hits' := by
  rcases hits with _ | ⟨⟨m⟩ | ⟨m⟩⟩ <;> rcases hits' with _ | ⟨⟨n⟩ | ⟨n⟩⟩ <;>
    simp_all [HitsTree.chars, ← Numeral.ext_iff]

theorem fieldEnd_hitsChars (hits : Option HitsTree) :
    Reader.FieldEnd ((hits.map HitsTree.chars).getD []) := by
  have hend : Reader.FieldEnd (_ ++ []) :=
    Reader.fieldEnd_hits (hitsSpelled hits) (by simp [Reader.RowEnd])
  simpa using hend

/-- Rows have one derivation: the flag, the relation and whether there is one are read off the row
denoted, and fields are told apart in front of a relation and of a hit count. -/
theorem RowTree.eq_of_chars_eq {t t' : RowTree} (e : t.chars = t'.chars) (h : t.row = t'.row) :
    t = t' := by
  rcases t with ⟨flag, left, op, right, hits⟩ | ⟨flag, hacc, left⟩ <;>
    rcases t' with ⟨flag', left', op', right', hits'⟩ | ⟨flag', hacc', left'⟩ <;>
    obtain ⟨-, hop, -, -, rfl⟩ := Requirement.mk.inj h
  · obtain rfl : op = op' := Option.some.inj hop
    obtain ⟨rfl, hcomparison⟩ := splits_fieldTree left left' _ _ (Reader.fieldEnd_token op _).1
      (Reader.fieldEnd_token op _).1 (List.append_cancel_left e)
    obtain ⟨rfl, hhits⟩ := splits_fieldTree right right' _ _ (fieldEnd_hitsChars hits)
      (fieldEnd_hitsChars hits') (List.append_cancel_left hcomparison)
    rw [hitsChars_injective hhits]
  · cases hop
  · cases hop
  · obtain rfl := FieldTree.chars_injective (List.append_cancel_left e)
    rfl

theorem splits_rowTree : Splits RowTree.chars Reader.RowEnd :=
  splits_of_reads (fun t _ h => Reader.requirement_spelled t.spelled h)
    fun _ _ => RowTree.eq_of_chars_eq

theorem splits_groupChars : Splits groupChars Reader.GroupEnd := by
  have ends {r : List Char} (h : Reader.GroupEnd r) :
      Reader.RowEnd r ∧ r.head? ≠ some '_' := ⟨h.rowEnd, fun e => by simpa using h '_' e⟩
  have first (t : RowTree) {r s : List Char} (h : Reader.GroupEnd r) (e : t.chars ++ s = r) :
      False := by
    obtain ⟨c, cs, hc, hS⟩ := t.spelled.eq_cons
    exact hS (h c (by simp [← e, hc]))
  rintro (_ | ⟨a, as⟩) (_ | ⟨b, bs⟩) r r' hr hr' e
  · exact ⟨rfl, e⟩
  · exact (first b hr (by simpa [groupChars] using e.symm)).elim
  · exact (first a hr' (by simpa [groupChars] using e)).elim
  · have more := splits_rowTree.led '_' fun cs => by simp [Reader.RowEnd]
    have follows (ts : List RowTree) {s : List Char} (h : Reader.GroupEnd s) :
        Reader.RowEnd ((ts.flatMap fun t => '_' :: t.chars) ++ s) := by
      cases ts with
      | nil => exact h.rowEnd
      | cons => simp [Reader.RowEnd]
    simp only [groupChars, List.append_assoc] at e
    obtain ⟨rfl, e'⟩ := splits_rowTree a b _ _ (follows as hr) (follows bs hr') e
    obtain ⟨rfl, rfl⟩ := more as bs r r' (ends hr) (ends hr') e'
    exact ⟨rfl, rfl⟩

/-- **No text has two derivations.** -/
theorem TriggerTree.chars_injective : Function.Injective TriggerTree.chars := by
  rintro ⟨core, gs⟩ ⟨core', gs'⟩ e
  have ends (gs : List (List RowTree)) :
      Reader.GroupEnd (gs.flatMap fun g => 'S' :: groupChars g) := by
    cases gs <;> simp [Reader.GroupEnd]
  obtain ⟨rfl, e'⟩ := splits_groupChars core core' _ _ (ends gs) (ends gs') e
  have more := splits_groupChars.led 'S' fun cs => by simp [Reader.GroupEnd]
  have hnil : Reader.GroupEnd [] ∧ [].head? ≠ some 'S' := by simp [Reader.GroupEnd]
  obtain ⟨rfl, -⟩ := more gs gs' [] [] hnil hnil (by simpa using e')
  rfl

/-! ## The reader and the grammar -/

/-- **The reader accepts exactly the grammar.** An ASCII text is read if and only if it has a
derivation; it has no second one, and what is read is what the derivation denotes. -/
theorem readTrigger_iff_exists_tree (s : String) (hs : IsAscii s.toList) :
    ((∃ t, readTrigger s = .ok t) ↔ ∃ tree : TriggerTree, tree.text = s) ∧
      (∀ tree tree' : TriggerTree, tree.text = s → tree'.text = s → tree = tree') ∧
      ∀ tree : TriggerTree, tree.text = s → readTrigger s = .ok tree.trigger := by
  have denotes (tree : TriggerTree) (h : tree.text = s) : readTrigger s = .ok tree.trigger := by
    rw [readTrigger_eq_ok_iff, ← h, TriggerTree.text, String.toList_ofList]
    exact Reader.trigger_eq_ok_iff.2 tree.spelled
  refine ⟨⟨fun ⟨t, ht⟩ => ?_, fun ⟨tree, h⟩ => ⟨_, denotes tree h⟩⟩, ?_, denotes⟩
  · rw [readTrigger_eq_ok_iff, Reader.trigger_eq_ok_iff] at ht
    obtain ⟨tree, h, -⟩ := ht.exists_tree hs
    exact ⟨tree, by rw [TriggerTree.text, h, String.ofList_toList]⟩
  · rintro tree tree' rfl h'
    exact TriggerTree.chars_injective (String.ofList_injective h').symm

/-- A size without letter in front of a digit that is the letter of a flag, sizes in lower case, a
hit count in parentheses, accumulators with a comparison and without, and an empty alternate. -/
theorem existsUnique_tree_spellings :
    let s := "0xb<=0x 01fSSC:d0xs2>007(12)_A:0xh3=1_B:0xX1"
    let t : Trigger :=
      ⟨[{ left := .memory .word ⟨0xb, by decide⟩, operator := some .le,
          right := .memory .word ⟨0x1f, by decide⟩ }],
       [[], [{ left := .previous (.bit 6) ⟨2, by decide⟩, operator := some .gt,
               right := .literal ⟨7, by decide⟩, hits := 12, flag := .addHits },
             { left := .memory .byte ⟨3, by decide⟩, operator := some .eq,
               right := .literal ⟨1, by decide⟩, flag := .addSource },
             { left := .memory .dword ⟨1, by decide⟩, flag := .subSource }]]⟩
    IsAscii s.toList ∧ readTrigger s = .ok t ∧ ∃ tree : TriggerTree,
      tree.trigger = t ∧ ∀ tree' : TriggerTree, tree'.text = s ↔ tree' = tree := by
  intro s t
  have hs : IsAscii s.toList := by decide
  have hread : readTrigger s = .ok t := by decide +kernel
  obtain ⟨haccepts, hsingle, hdenotes⟩ := readTrigger_iff_exists_tree s hs
  obtain ⟨tree, htext⟩ := haccepts.1 ⟨t, hread⟩
  refine ⟨hs, hread, tree, Except.ok.inj ((hdenotes tree htext).symm.trans hread), fun tree' => ?_⟩
  exact ⟨fun h => hsingle tree' tree h htext, fun h => h ▸ htext⟩

end AchievementLang.Wire

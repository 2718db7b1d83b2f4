import AchievementLang.Proofs.Text.Case
import AchievementLang.Proofs.Wire.Reading
import AchievementLang.Wire.Reader

/-!
# Spellings

A field, a row or a trigger can be written in more than one way: sizes have letters in either case
or none, hit counts stand between points or in parentheses, and digits may be those of any script.
The relations `Field.Spelled`, `Requirement.Spelled` and `Trigger.Spelled` say how.

The readers are greedy and never go back. Still they accept the spellings and nothing else
(`Reader.trigger_eq_ok_iff`): what a reader gives is spelled by the characters that it has taken
(`Reader.takes_field`, `Reader.takes_requirement`, `Reader.takes_group`), and each spelling is read
as what it spells in front of whatever may follow it (`Reader.field_spelled`,
`Reader.requirement_spelled`, `Reader.group_spelled`).
-/

namespace AchievementLang.Wire

/-! ## Spellings of fields, rows and triggers -/

/-- Digits of any script, one or more, write the number. -/
def IsSpelling (t : List Char) (n : Nat) : Prop := t ≠ [] ∧ Text.decimalValue? t = some n

/-- A character stands for the size. None stands for that of a word. -/
inductive Size.Spelled : List Char → Size → Prop
  | missing : Spelled [] .word
  | mark {c : Char} {s : Size} (h : Reader.sizeOf? c = some s) : Spelled [c] s

/-- Digits of base sixteen, one or more, write the address. -/
def Word.Spelled (t : List Char) (a : Word) : Prop :=
  t ≠ [] ∧ (∀ c ∈ t, Text.isHexDigit c = true) ∧ Text.hexValue t = a

/-- The spellings of fields. -/
inductive Field.Spelled : List Char → Field → Prop
  | literal {t : List Char} {n : Nat} (hn : IsSpelling t n) (h : n < wordCount) :
      Spelled t (.literal ⟨n, h⟩)
  | memory {t u : List Char} {s : Size} {a : Word} (hs : s.Spelled t) (ha : a.Spelled u) :
      Spelled ('0' :: 'x' :: (t ++ u)) (.memory s a)
  | previous {t u : List Char} {s : Size} {a : Word} (hs : s.Spelled t) (ha : a.Spelled u) :
      Spelled ('d' :: '0' :: 'x' :: (t ++ u)) (.previous s a)

/-- A flag has its letter and a colon, no flag has nothing. -/
inductive Flag.Spelled : List Char → Flag → Prop
  | missing : Spelled [] .none
  | letter {c : Char} {f : Flag} (h : f.letter? = some c) : Spelled [c, ':'] f

/-- A hit count stands between points or in parentheses. None stands for zero. -/
inductive HitsSpelled : List Char → Nat → Prop
  | missing : HitsSpelled [] 0
  | pointed {t : List Char} {n : Nat} (hn : IsSpelling t n) : HitsSpelled ('.' :: (t ++ ['.'])) n
  | enclosed {t : List Char} {n : Nat} (hn : IsSpelling t n) : HitsSpelled ('(' :: (t ++ [')'])) n

/-- The spellings of rows. Only accumulators do without a comparison. -/
inductive Requirement.Spelled : List Char → Requirement → Prop
  | compared {t u v w : List Char} {f : Flag} {left right : Field} {op : Relation} {n : Nat}
      (hf : f.Spelled t) (hl : left.Spelled u) (hr : right.Spelled v) (hn : HitsSpelled w n) :
      Spelled (t ++ (u ++ ((relationToken op).toList ++ (v ++ w))))
        { left := left, operator := some op, right := right, hits := n, flag := f }
  | accumulated {t u : List Char} {f : Flag} {left : Field} (hf : f.Spelled t)
      (hacc : f.isAccumulator = true) (hl : left.Spelled u) :
      Spelled (t ++ u) { left := left, flag := f }

/-- The spellings of groups. -/
def Group.Spelled (t : List Char) (g : Group) : Prop :=
  t = [] ∧ g = [] ∨ Reader.JoinedBy '_' Requirement.Spelled t g

/-- The spellings of triggers. -/
def Trigger.Spelled (cs : List Char) (t : Trigger) : Prop :=
  ∃ u v, cs = u ++ v ∧ Group.Spelled u t.core ∧ Reader.LedBy 'S' Group.Spelled v t.alternates

/-! ## How spellings start -/

/-- A spelling of a field starts with a digit or with the mark of a previous value, and there is no
colon in it. -/
theorem Field.Spelled.eq_cons {t : List Char} {f : Field} (h : f.Spelled t) :
    ∃ c cs, t = c :: cs ∧ (Text.isDigit c = true ∨ c = 'd') ∧ ':' ∉ cs := by
  have colon {u v : List Char} {s : Size} {a : Word} (hs : s.Spelled u) (ha : a.Spelled v) :
      ':' ∉ u ++ v := by
    refine fun hc => (List.mem_append.1 hc).elim (fun hu => ?_) fun hv =>
      absurd (ha.2.1 ':' hv) (by decide)
    cases hs with
    | missing => cases hu
    | mark h =>
      have hno : Reader.sizeOf? ':' = none := by decide +kernel
      rw [← List.mem_singleton.1 hu, hno] at h
      cases h
  cases h with
  | literal hn hlt =>
    have hdigit := Text.IsNumeral.isDigit ⟨hn.1, Text.isSome_of_decimalValue? hn.2⟩
    obtain ⟨c, cs, rfl⟩ := List.exists_cons_of_ne_nil hn.1
    exact ⟨c, cs, rfl, .inl (hdigit c (by simp)), fun hc =>
      absurd (hdigit ':' (by simp [hc])) (by decide)⟩
  | memory hs ha => exact ⟨_, _, rfl, .inl (by decide), by simpa using colon hs ha⟩
  | previous hs ha => exact ⟨_, _, rfl, .inr rfl, by simpa using colon hs ha⟩

/-- A row does not look like the lead of an alternate. -/
theorem Requirement.Spelled.eq_cons {t : List Char} {r : Requirement} (h : r.Spelled t) :
    ∃ c cs, t = c :: cs ∧ c ≠ 'S' := by
  have first {t u v : List Char} {f : Flag} {left : Field} (hf : f.Spelled t)
      (hl : left.Spelled u) : ∃ c cs, t ++ (u ++ v) = c :: cs ∧ c ≠ 'S' := by
    cases hf with
    | missing =>
      obtain ⟨c, cs, rfl, hc, -⟩ := hl.eq_cons
      refine ⟨c, _, rfl, ?_⟩
      rintro rfl
      revert hc
      decide
    | letter hletter => exact ⟨_, _, rfl, by cases f <;> cases hletter <;> decide⟩
  cases h with
  | compared hf hl hr hn => exact first hf hl
  | accumulated hf hacc hl => simpa using first (v := []) hf hl

namespace Reader

/-! ## What is read is spelled by what is taken -/

theorem takes_digits : Takes digits fun t x => IsSpelling t x.2 := by
  intro cs x rest h
  unfold digits at h
  split at h
  · cases h
  next hrun =>
    split at h
    next n hn =>
      cases h
      exact ⟨_, (List.takeWhile_append_dropWhile).symm, hrun, hn⟩
    · cases h

theorem takes_size : Takes size fun t s => s.Spelled t := by
  intro cs s rest h
  unfold size at h
  split at h
  · cases h
  next c after =>
    split at h
    next hs =>
      cases h
      exact ⟨[c], rfl, .mark hs⟩
    · split at h
      · cases h
        exact ⟨[], rfl, .missing⟩
      · cases h

theorem takes_address : Takes address fun t a => a.Spelled t := by
  intro cs a rest h
  simp only [address] at h
  split at h
  · cases h
  next hrun =>
    split at h
    · cases h
      exact ⟨_, (List.takeWhile_append_dropWhile).symm, by simpa using hrun,
        fun c hc => List.mem_takeWhile_imp hc, rfl⟩
    · cases h

theorem takes_reference (kind : FieldKind) :
    Takes (reference kind) fun t f =>
      ∃ u v s a, t = u ++ v ∧ s.Spelled u ∧ Word.Spelled v a ∧ f = ⟨kind, some s, a⟩ := by
  intro cs f rest h
  unfold reference at h
  split at h
  · cases h
  next s after hs =>
    split at h
    · cases h
    next a last ha =>
      cases h
      obtain ⟨u, rfl, hu⟩ := takes_size _ _ _ hs
      obtain ⟨v, rfl, hv⟩ := takes_address _ _ _ ha
      exact ⟨u ++ v, by simp, u, v, s, a, rfl, hu, hv, rfl⟩

theorem takes_literal : Takes literal fun t f => f.Spelled t := by
  intro cs f rest h
  unfold literal at h
  split at h
  · cases h
  next n after hn =>
    split at h
    next hlt =>
      cases h
      obtain ⟨t, rfl, ht⟩ := takes_digits _ _ _ hn
      exact ⟨t, rfl, .literal ht hlt⟩
    · cases h

/-- **A field that is read is spelled by the characters taken.** -/
theorem takes_field : Takes field fun t f => f.Spelled t := by
  intro cs f rest h
  unfold field at h
  split at h
  · obtain ⟨t, rfl, u, v, s, a, rfl, hs, ha, rfl⟩ := takes_reference _ _ _ _ h
    exact ⟨_, rfl, .memory hs ha⟩
  · obtain ⟨t, rfl, u, v, s, a, rfl, hs, ha, rfl⟩ := takes_reference _ _ _ _ h
    exact ⟨_, rfl, .previous hs ha⟩
  · cases h
  · exact takes_literal _ _ _ h

theorem letter?_of_ofLetter? {c : Char} {f : Flag} (h : Flag.ofLetter? c = some f) :
    f.letter? = some c := by
  unfold Flag.ofLetter? at h
  split at h <;> cases h <;> rfl

theorem takes_flag : Takes flag fun t f => f.Spelled t := by
  intro cs f rest h
  unfold flag at h
  split at h
  next c after =>
    split at h
    next hf =>
      cases h
      exact ⟨[c, ':'], rfl, .letter (letter?_of_ofLetter? hf)⟩
    · cases h
  · cases h
    exact ⟨[], rfl, .missing⟩

theorem relation_eq_some {cs rest : List Char} {op : Relation}
    (h : relation cs = (some op, rest)) : cs = (relationToken op).toList ++ rest := by
  unfold relation at h
  split at h <;> cases h <;> rfl

theorem relation_eq_none {cs rest : List Char} (h : relation cs = (none, rest)) : cs = rest := by
  unfold relation at h
  split at h <;> cases h
  rfl

theorem expect_eq_ok {c : Char} {cs rest : List Char} (h : expect c cs = .ok ((), rest)) :
    cs = c :: rest := by
  unfold expect at h
  split at h
  · split at h
    next hc =>
      cases h
      rw [hc]
    · cases h
  · cases h

theorem takes_closedCount (close : Char) :
    Takes (closedCount close) fun t n => ∃ u, t = u ++ [close] ∧ IsSpelling u n := by
  intro cs n rest h
  unfold closedCount at h
  split at h
  · cases h
  next digits n' after hn =>
    split at h
    · cases h
    next last hlast =>
      cases h
      obtain ⟨u, rfl, hu⟩ := takes_digits _ _ _ hn
      rw [expect_eq_ok hlast]
      exact ⟨u ++ [close], by simp, u, rfl, hu⟩

theorem takes_hits : Takes hits HitsSpelled := by
  intro cs n rest h
  unfold hits at h
  split at h
  · obtain ⟨t, rfl, u, rfl, hn⟩ := takes_closedCount _ _ _ _ h
    exact ⟨_, rfl, .pointed hn⟩
  · obtain ⟨t, rfl, u, rfl, hn⟩ := takes_closedCount _ _ _ _ h
    exact ⟨_, rfl, .enclosed hn⟩
  · cases h
    exact ⟨[], rfl, .missing⟩

/-- **A row that is read is spelled by the characters taken.** -/
theorem takes_requirement : Takes requirement fun t r => r.Spelled t := by
  intro cs r rest h
  unfold requirement at h
  split at h
  · cases h
  next f afterFlag hf =>
    split at h
    · cases h
    next left afterLeft hl =>
      obtain ⟨t, rfl, ht⟩ := takes_flag _ _ _ hf
      obtain ⟨u, rfl, hu⟩ := takes_field _ _ _ hl
      unfold comparison at h
      split at h
      next last hop =>
        split at h
        next hacc =>
          cases h
          rw [relation_eq_none hop]
          exact ⟨t ++ u, by simp, .accumulated ht hacc hu⟩
        · cases h
      next op afterOp hop =>
        split at h
        · cases h
        next right afterRight hr =>
          split at h
          · cases h
          next n last hn =>
            cases h
            obtain ⟨v, rfl, hv⟩ := takes_field _ _ _ hr
            obtain ⟨w, rfl, hw⟩ := takes_hits _ _ _ hn
            rw [relation_eq_some hop]
            exact ⟨_, by simp, .compared ht hu hv hw⟩

theorem takes_group : Takes group fun t g => g.Spelled t := by
  intro cs g rest h
  unfold group at h
  split at h
  · cases h
    exact ⟨[], rfl, .inl ⟨rfl, rfl⟩⟩
  · cases h
    exact ⟨[], rfl, .inl ⟨rfl, rfl⟩⟩
  · obtain ⟨t, rfl, ht⟩ := takes_requirement.joined _ _ _ h
    exact ⟨t, rfl, .inr ht⟩

/-- **A trigger that is read is spelled by its text.** -/
theorem spelled_of_trigger {cs : List Char} {t : Trigger} (h : trigger cs = .ok t) :
    t.Spelled cs := by
  unfold trigger at h
  split at h
  · cases h
  next core rest hcore =>
    split at h
    · cases h
    next alternates halts =>
      cases h
      obtain ⟨u, rfl, hu⟩ := takes_group _ _ _ hcore
      exact ⟨u, rest, rfl, hu, takes_group.toEnd halts⟩

/-! ## What is spelled is read

The format has no quoting, so each reader is stated for a text that goes on behind what it reads.
-/

variable {t u rest : List Char}

theorem digits_spelled {n : Nat} (h : IsSpelling t n)
    (hrest : ∀ c ∈ rest.head?, Text.isDigit c = false) :
    digits (t ++ rest) = .ok ((t, n), rest) :=
  digits_append ⟨h.1, Text.isSome_of_decimalValue? h.2⟩ h.2 hrest

theorem sizeOf?_of_ascii {c : Char} (h : c.toNat < 128) :
    sizeOf? c = Size.ofLetter? c.toUpper := by
  rw [sizeOf?, Text.upperChar_of_ascii h]

/-- No digit of base sixteen stands for a size. -/
theorem sizeOf?_hexDigit {c : Char} (h : Text.isHexDigit c = true) : sizeOf? c = none := by
  have hc := Text.toNat_lt_of_isHexDigit h
  rw [sizeOf?_of_ascii hc]
  refine Text.forall_ascii
    (p := fun c => Text.isHexDigit c = true → Size.ofLetter? c.toUpper = none) ?_ hc h
  decide +kernel

theorem size_spelled {s : Size} {a : Word} (hs : s.Spelled t) (ha : a.Spelled u) :
    size (t ++ (u ++ rest)) = .ok (s, u ++ rest) := by
  cases hs with
  | missing =>
    obtain ⟨hne, hhex, -⟩ := ha
    cases u with
    | nil => exact absurd rfl hne
    | cons d ds =>
      have hd := hhex d (by simp)
      simp [size, sizeOf?_hexDigit hd, hd]
  | mark h => simp [size, h]

theorem address_spelled {a : Word} (ha : a.Spelled t)
    (hrest : ∀ c ∈ rest.head?, Text.isHexDigit c = false) :
    address (t ++ rest) = .ok (a, rest) := by
  obtain ⟨hne, hhex, hvalue⟩ := ha
  simp only [address, Text.takeWhile_append_of_head hhex hrest,
    Text.dropWhile_append_of_head hhex hrest, hvalue, List.isEmpty_iff, hne, if_false, a.isLt,
    dif_pos, Fin.eta]

/-- What may stand behind a field: nothing, or a character that no field goes on with. -/
def FieldEnd (rest : List Char) : Prop :=
  ∀ c ∈ rest.head?, Text.isDigit c = false ∧ Text.isHexDigit c = false ∧ c ≠ 'x'

theorem reference_spelled (kind : FieldKind) {s : Size} {a : Word} (hs : s.Spelled t)
    (ha : a.Spelled u) (h : FieldEnd rest) :
    reference kind (t ++ u ++ rest) = .ok (⟨kind, some s, a⟩, rest) := by
  simp only [reference, List.append_assoc, size_spelled hs ha,
    address_spelled ha fun c hc => (h c hc).2.1]

/-- What starts with a digit, but not with `0x`, is read as a literal. -/
theorem field_eq_literal {c : Char} (hc : Text.isDigit c = true) (hx : rest.head? ≠ some 'x') :
    field (c :: rest) = literal (c :: rest) := by
  have hd : c ≠ 'd' := by rintro rfl; revert hc; decide
  unfold field
  split
  · simp_all
  · simp_all
  · simp_all
  · rfl

/-- **A field is read from each of its spellings**, and what follows it is left. -/
theorem field_spelled {f : Field} (hf : f.Spelled t) (h : FieldEnd rest) :
    field (t ++ rest) = .ok (f, rest) := by
  cases hf with
  | @literal _ n hn hlt =>
    have hread := digits_spelled hn fun c hc => (h c hc).1
    have hdigit := Text.IsNumeral.isDigit ⟨hn.1, Text.isSome_of_decimalValue? hn.2⟩
    cases t with
    | nil => exact absurd rfl hn.1
    | cons d ds =>
      -- a second digit is no `x`, and neither is what follows
      have hx : (ds ++ rest).head? ≠ some 'x' := by
        cases ds with
        | nil => exact fun e => (h 'x' e).2.2 rfl
        | cons e es =>
          intro he
          have := hdigit 'x' (by simp_all)
          revert this
          decide
      rw [List.cons_append] at hread ⊢
      rw [field_eq_literal (hdigit d (by simp)) hx]
      simp only [literal, hread, hlt, dif_pos]
  | memory hs ha => exact reference_spelled .memory hs ha h
  | previous hs ha => exact reference_spelled .previous hs ha h

/-! ### Rows -/

/-- What may stand behind a row: nothing, the next row or an alternate. -/
def RowEnd (rest : List Char) : Prop := ∀ c ∈ rest.head?, c = '_' ∨ c = 'S'

/-- What may stand behind a group: nothing or an alternate. -/
def GroupEnd (rest : List Char) : Prop := ∀ c ∈ rest.head?, c = 'S'

theorem RowEnd.fieldEnd (h : RowEnd rest) : FieldEnd rest := fun c hc => by
  obtain rfl | rfl := h c hc <;> decide

theorem RowEnd.head?_ne_colon (h : RowEnd rest) : rest.head? ≠ some ':' := fun e => by
  obtain he | he := h ':' e <;> revert he <;> decide

theorem GroupEnd.rowEnd (h : GroupEnd rest) : RowEnd rest := fun c hc => .inr (h c hc)

/-- A relation is read if no `=` follows that would make it a longer one. -/
theorem relation_token (op : Relation) (h : rest.head? ≠ some '=') :
    relation ((relationToken op).toList ++ rest) = (some op, rest) := by
  cases rest with
  | nil => cases op <;> rfl
  | cons c rest =>
    have hc : c ≠ '=' := by simpa using h
    cases op <;> simp [relationToken, relation, hc]

theorem relation_rowEnd (h : RowEnd rest) : relation rest = (none, rest) := by
  cases rest with
  | nil => rfl
  | cons c rest => obtain rfl | rfl := h c rfl <;> rfl

/-- A relation ends the field in front of it, and is no colon. -/
theorem fieldEnd_token (op : Relation) (rest : List Char) :
    FieldEnd ((relationToken op).toList ++ rest) ∧
      ((relationToken op).toList ++ rest).head? ≠ some ':' := by
  cases op <;> simp [FieldEnd, relationToken] <;> decide

theorem hits_spelled {n : Nat} (hn : HitsSpelled t n) (h : RowEnd rest) :
    hits (t ++ rest) = .ok (n, rest) := by
  have closed {u : List Char} (close : Char) (hclose : Text.isDigit close = false)
      (hu : IsSpelling u n) : closedCount close (u ++ close :: rest) = .ok (n, rest) := by
    have hread : digits (u ++ close :: rest) = .ok ((u, n), close :: rest) :=
      digits_spelled hu (by simpa using hclose)
    simp [closedCount, expect, hread]
  cases hn with
  | missing =>
    cases rest with
    | nil => rfl
    | cons c rest => obtain rfl | rfl := h c rfl <;> rfl
  | pointed hn => simpa [hits] using closed '.' (by decide) hn
  | enclosed hn => simpa [hits] using closed ')' (by decide) hn

/-- A hit count, or the end of a row, ends the field in front of it. -/
theorem fieldEnd_hits {n : Nat} (hn : HitsSpelled t n) (h : RowEnd rest) :
    FieldEnd (t ++ rest) := by
  cases hn with
  | missing => exact h.fieldEnd
  | pointed | enclosed => simp [FieldEnd]; decide

/-- The flag of a row is read in front of its left field; a row without flag is recognised by its
second character. -/
theorem flag_spelled {f : Flag} {left : Field} (hf : f.Spelled t) (hl : left.Spelled u)
    (h : rest.head? ≠ some ':') : flag (t ++ (u ++ rest)) = .ok (f, u ++ rest) := by
  cases hf with
  | missing =>
    obtain ⟨c, cs, rfl, -, hcolon⟩ := hl.eq_cons
    cases cs with
    | nil => cases rest <;> simp_all [flag]
    | cons d ds => simp_all [flag, eq_comm]
  | letter hletter => cases f <;> cases hletter <;> rfl

/-- **A row is read from each of its spellings.** -/
theorem requirement_spelled {r : Requirement} (hr : r.Spelled t) (h : RowEnd rest) :
    requirement (t ++ rest) = .ok (r, rest) := by
  cases hr with
  | @compared t u v w f left right op n hf hl hr hn =>
    obtain ⟨hend, hcolon⟩ := fieldEnd_token op (v ++ (w ++ rest))
    have hfirst : (v ++ (w ++ rest)).head? ≠ some '=' := by
      obtain ⟨c, cs, rfl, hc, -⟩ := hr.eq_cons
      intro e
      obtain rfl : c = '=' := by simpa using e
      revert hc
      decide
    simp only [List.append_assoc, requirement, flag_spelled hf hl hcolon, field_spelled hl hend,
      comparison, relation_token op hfirst, field_spelled hr (fieldEnd_hits hn h),
      hits_spelled hn h]
  | accumulated hf hacc hl =>
    simp only [List.append_assoc, requirement, flag_spelled hf hl h.head?_ne_colon,
      field_spelled hl h.fieldEnd, comparison, relation_rowEnd h, if_pos hacc]

/-! ### Groups and triggers -/

/-- **A group is read from each of its spellings**, also if it is empty. -/
theorem group_spelled {g : Group} (hg : g.Spelled t) (h : GroupEnd rest) :
    group (t ++ rest) = .ok (g, rest) := by
  obtain ⟨rfl, rfl⟩ | hjoined := hg
  · cases rest with
    | nil => rfl
    | cons c rest => obtain rfl := h c rfl; rfl
  · have hread := hjoined.reads (fun _ _ hr _ => requirement_spelled hr)
      (fun cs => by simp [RowEnd]) h.rowEnd (fun e => absurd (h '_' e) (by decide))
    obtain ⟨u, v, r, more, rfl, rfl, hr, -⟩ := hjoined
    obtain ⟨c, cs, rfl, hc⟩ := hr.eq_cons
    rw [← hread]
    simp [group, hc]

/-- **A text is read as the triggers of which it is a spelling**, and as nothing else. -/
theorem trigger_eq_ok_iff {cs : List Char} {t : Trigger} :
    trigger cs = .ok t ↔ t.Spelled cs := by
  refine ⟨spelled_of_trigger, ?_⟩
  rintro ⟨u, v, rfl, hcore, halts⟩
  have hend : GroupEnd v := by
    obtain ⟨ts, rfl, -⟩ := halts
    cases ts <;> simp [GroupEnd]
  have hread := halts.reads_toEnd (fun _ _ hg _ => group_spelled hg) (fun cs => by simp [GroupEnd])
    (by simp [GroupEnd])
  simp only [trigger, group_spelled hcore hend, hread]

end Reader

end AchievementLang.Wire

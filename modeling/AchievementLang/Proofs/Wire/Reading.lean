import AchievementLang.Proofs.Text.Lines
import AchievementLang.Proofs.Text.Numeral
import AchievementLang.Wire.Reading
import Mathlib.Data.List.Forall2

/-!
# Readers and what follows

A reader takes as much as it can, so what it reads depends on what follows. Numerals are read
before a rest that starts with no digit (`Reader.digits_append`). A rest that is `Delimited` is one:
it is empty or starts with a character that no numeral goes on with.

A text reads as an item if it does in front of whatever may follow it (`Reader.Reads`). Texts that
each read as an item do so too when they are joined by a separator (`Reader.reads_intercalate`). A
text may also stick: the reader stops in the middle of it, at a character that is not a separator,
and then it stops there in a joined text as well (`Reader.sticks_intercalate`).

The converse asks what a reader that gives an item has taken off the front of its text
(`Reader.Takes`). A reader of a list takes what the reader of its items does, and the separators
(`Reader.Takes.led`, `Reader.Takes.joined`).
-/

namespace AchievementLang.Wire

/-! ## What may follow a numeral -/

/-- The characters that stand after fields and numbers on the wire. -/
def delimiters : List Char := ['=', '!', '<', '>', '.', '_', 'S', '*', '$', ':']

/-- The text is empty or starts with a delimiter. -/
def Delimited (rest : List Char) : Prop := ∀ c ∈ rest.head?, c ∈ delimiters

theorem delimited_cons {c : Char} (h : c ∈ delimiters) (rest : List Char) :
    Delimited (c :: rest) := by
  simpa [Delimited] using h

namespace Delimited

variable {rest : List Char} (h : Delimited rest)

include h

theorem isDigit_head : ∀ c ∈ rest.head?, Text.isDigit c = false := by
  intro c hc
  have all : delimiters.all (fun c => !Text.isDigit c) = true := by decide
  simpa using List.all_eq_true.1 all c (h c hc)

theorem isHexDigit_head : ∀ c ∈ rest.head?, Text.isHexDigit c = false := by
  intro c hc
  have all : delimiters.all (fun c => !Text.isHexDigit c) = true := by decide
  simpa using List.all_eq_true.1 all c (h c hc)

end Delimited

/-! ## Numbers -/

/-- A numeral is read up to a rest that starts with no digit. -/
theorem Reader.digits_append {ds rest : List Char} {n : Nat} (hds : Text.IsNumeral ds)
    (hn : Text.decimalValue? ds = some n) (hrest : ∀ c ∈ rest.head?, Text.isDigit c = false) :
    Reader.digits (ds ++ rest) = .ok ((ds, n), rest) := by
  rw [Reader.digits, Text.takeWhile_append_of_head hds.isDigit hrest,
    Text.dropWhile_append_of_head hds.isDigit hrest]
  cases ds with
  | nil => exact absurd rfl hds.1
  | cons d ds => simp only [hn]

/-! ## Joined texts -/

/-- The parts of a joined text: the first one, and the others each led by the separator. -/
theorem toList_intercalate_cons (sep : Char) (s : String) (ss : List String) :
    ((String.singleton sep).intercalate (s :: ss)).toList =
      s.toList ++ ss.flatMap fun t => sep :: t.toList := by
  rw [Text.toList_intercalate_cons, String.toList_singleton]
  rfl

namespace Reader

section Joined

variable {β : Type} {sep mark : Char} {item : Reader β} {Follows Ends : List Char → Prop}
  {t : String} {ts : List String} {bs : List β} {rest : List Char}

/-- In front of whatever may follow, the text is read as the item. -/
def Reads (item : Reader β) (Follows : List Char → Prop) (t : String) (b : β) : Prop :=
  ∀ rest, Follows rest → item (t.toList ++ rest) = .ok (b, rest)

/-- Whatever follows, an item is read that ends before the mark within the text. -/
def Sticks (mark : Char) (item : Reader β) (Follows : List Char → Prop) (t : String) : Prop :=
  ∀ rest, Follows rest → ∃ b tail, item (t.toList ++ rest) = .ok (b, mark :: tail)

/-- The texts, each led by the separator. -/
def ledText (sep : Char) (ts : List String) : List Char := ts.flatMap fun t => sep :: t.toList

theorem ledText_cons (sep : Char) (t : String) (ts : List String) :
    ledText sep (t :: ts) = sep :: (t.toList ++ ledText sep ts) := by
  simp [ledText]

/-- What follows an item is the next separator or the rest. -/
theorem follows_ledText (hsep : ∀ cs, Follows (sep :: cs)) (hrest : Follows rest)
    (ts : List String) : Follows (ledText sep ts ++ rest) := by
  cases ts with
  | nil => exact hrest
  | cons t ts =>
    rw [ledText_cons]
    exact hsep _

/-- Texts that read as items before a separator, and before the rest, are all read. -/
theorem led_ledText (hsep : ∀ cs, Follows (sep :: cs)) (hrest : Follows rest)
    (hstop : rest.head? ≠ some sep) (h : List.Forall₂ (Reads item Follows) ts bs) :
    led sep item (ledText sep ts ++ rest) = .ok (bs, rest) := by
  induction h with
  | nil =>
    rw [ledText, List.flatMap_nil, List.nil_append]
    cases rest with
    | nil => rw [led]
    | cons c rest => rw [led, if_neg (by simpa using hstop)]
  | @cons t b ts bs ht _ ih =>
    rw [ledText_cons, List.cons_append, List.append_assoc, led, if_pos rfl,
      ht _ (follows_ledText hsep hrest ts)]
    simp only [List.length_append, Nat.le_add_left, dif_pos, ih]

/-- **Joined texts read as the list of their items**, in front of an end that does not start with
the separator. -/
theorem reads_intercalate (hsep : ∀ cs, Follows (sep :: cs)) (hends : ∀ cs, Ends cs → Follows cs)
    (hstop : ∀ cs, Ends cs → cs.head? ≠ some sep)
    (h : List.Forall₂ (Reads item Follows) (t :: ts) bs) :
    Reads (joined sep item) Ends ((String.singleton sep).intercalate (t :: ts)) bs := by
  obtain _ | ⟨ht, hts⟩ := h
  intro rest hrest
  have hfollows := hends rest hrest
  rw [toList_intercalate_cons, List.append_assoc, ← ledText]
  simp only [joined, ht _ (follows_ledText hsep hfollows ts),
    led_ledText hsep hfollows (hstop rest hrest) hts]

theorem led_mark (hmark : mark ≠ sep) (tail : List Char) :
    led sep item (mark :: tail) = .ok ([], mark :: tail) := by
  rw [led, if_neg hmark]

/-- Texts up to the first one that sticks are read, and nothing behind it is. -/
theorem led_sticks (hsep : ∀ cs, Follows (sep :: cs)) (hmark : mark ≠ sep)
    (hrest : Follows rest) (h : List.Forall₂ (Reads item Follows) ts bs) {u : String}
    (hu : Sticks mark item Follows u) (us : List String) :
    ∃ bs tail, led sep item (ledText sep (ts ++ u :: us) ++ rest) = .ok (bs, mark :: tail) := by
  induction h with
  | nil =>
    obtain ⟨b, tail, e⟩ := hu _ (follows_ledText hsep hrest us)
    rw [List.nil_append, ledText_cons, List.cons_append, List.append_assoc, led, if_pos rfl, e]
    dsimp only
    split
    · rw [led_mark hmark]
      exact ⟨_, _, rfl⟩
    · exact ⟨_, _, rfl⟩
  | @cons t b ts bs ht _ ih =>
    obtain ⟨bs, tail, e⟩ := ih
    rw [List.cons_append, ledText_cons, List.cons_append, List.append_assoc, led, if_pos rfl,
      ht _ (follows_ledText hsep hrest _)]
    simp only [List.length_append, Nat.le_add_left, dif_pos, e]
    exact ⟨_, _, rfl⟩

/-- **A joined text sticks where the first of its parts does.** -/
theorem sticks_intercalate (hsep : ∀ cs, Follows (sep :: cs))
    (hends : ∀ cs, Ends cs → Follows cs) (hmark : mark ≠ sep)
    (h : List.Forall₂ (Reads item Follows) ts bs) {u : String}
    (hu : Sticks mark item Follows u) (us : List String) :
    Sticks mark (joined sep item) Ends ((String.singleton sep).intercalate (ts ++ u :: us)) := by
  intro rest hrest
  have hfollows := hends rest hrest
  cases h with
  | nil =>
    rw [List.nil_append, toList_intercalate_cons, List.append_assoc, ← ledText]
    obtain ⟨b, tail, e⟩ := hu _ (follows_ledText hsep hfollows us)
    simp only [joined, e, led_mark hmark]
    exact ⟨_, _, rfl⟩
  | @cons t b ts bs ht hts =>
    rw [List.cons_append, toList_intercalate_cons, List.append_assoc, ← ledText]
    obtain ⟨bs, tail, e⟩ := led_sticks hsep hmark hfollows hts hu us
    simp only [joined, ht _ (follows_ledText hsep hfollows _), e]
    exact ⟨_, _, rfl⟩

variable {α : Type} {p : α → Prop} {as : List α}

/-- If the texts of some things read as items, and those of all others stick, then all of the
texts read or there is a first one that sticks. -/
theorem reads_or_first_sticks
    (h : List.Forall₂ (fun a t => p a ∧ (∃ b, Reads item Follows t b) ∨
      ¬ p a ∧ Sticks mark item Follows t) as ts) :
    (∀ a ∈ as, p a) ∧ (∃ bs, List.Forall₂ (Reads item Follows) ts bs) ∨
      (¬ ∀ a ∈ as, p a) ∧ ∃ front bs u us, ts = front ++ u :: us ∧
        List.Forall₂ (Reads item Follows) front bs ∧ Sticks mark item Follows u := by
  induction h with
  | nil => exact .inl ⟨by simp, [], .nil⟩
  | @cons a t as ts h _ ih =>
    obtain ⟨ha, b, hb⟩ | ⟨ha, hstick⟩ := h
    · obtain ⟨has, bs, hbs⟩ | ⟨has, front, bs, u, us, rfl, hfront, hu⟩ := ih
      · exact .inl ⟨List.forall_mem_cons.2 ⟨ha, has⟩, b :: bs, .cons hb hbs⟩
      · exact .inr ⟨fun hall => has (List.forall_mem_cons.1 hall).2,
          t :: front, b :: bs, u, us, rfl, .cons hb hfront, hu⟩
    · exact .inr ⟨fun hall => ha (List.forall_mem_cons.1 hall).1, [], [], t, ts, rfl, .nil, hstick⟩

variable (Ends) in
/-- **The joined text reads as a list if all of its parts read as items**, and sticks otherwise. -/
theorem reads_or_sticks_intercalate (hsep : ∀ cs, Follows (sep :: cs))
    (hends : ∀ cs, Ends cs → Follows cs) (hstop : ∀ cs, Ends cs → cs.head? ≠ some sep)
    (hmark : mark ≠ sep) (hne : as ≠ [])
    (h : List.Forall₂ (fun a t => p a ∧ (∃ b, Reads item Follows t b) ∨
      ¬ p a ∧ Sticks mark item Follows t) as ts) :
    (∀ a ∈ as, p a) ∧
        (∃ bs, Reads (joined sep item) Ends ((String.singleton sep).intercalate ts) bs) ∨
      (¬ ∀ a ∈ as, p a) ∧
        Sticks mark (joined sep item) Ends ((String.singleton sep).intercalate ts) := by
  obtain ⟨hall, bs, hbs⟩ | ⟨hnot, front, bs, u, us, rfl, hfront, hu⟩ := reads_or_first_sticks h
  · cases h with
    | nil => exact absurd rfl hne
    | cons => exact .inl ⟨hall, bs, reads_intercalate hsep hends hstop hbs⟩
  · exact .inr ⟨hnot, sticks_intercalate hsep hends hmark hfront hu us⟩

end Joined

/-! ## What readers take -/

section Taken

variable {α : Type} {sep : Char} {item : Reader α} {P : List Char → α → Prop}

/-- The reader takes characters off the front of a text, and they and what is read satisfy `P`. -/
def Takes (item : Reader α) (P : List Char → α → Prop) : Prop :=
  ∀ cs a rest, item cs = .ok (a, rest) → ∃ t, cs = t ++ rest ∧ P t a

/-- Items that are taken each behind a separator. -/
def LedBy (sep : Char) (P : List Char → α → Prop) (t : List Char) (as : List α) : Prop :=
  ∃ ts, t = ts.flatMap (sep :: ·) ∧ List.Forall₂ P ts as

/-- Items that are taken with a separator between them. -/
def JoinedBy (sep : Char) (P : List Char → α → Prop) (t : List Char) (as : List α) : Prop :=
  ∃ u v a more, t = u ++ v ∧ as = a :: more ∧ P u a ∧ LedBy sep P v more

theorem LedBy.flatMap {β : Type} {chars : β → List Char} (sep : Char) (value : β → α)
    {bs : List β} (h : ∀ b ∈ bs, P (chars b) (value b)) :
    LedBy sep P (bs.flatMap fun b => sep :: chars b) (bs.map value) :=
  ⟨bs.map chars, by rw [List.flatMap_map], by
    rwa [List.forall₂_map_left_iff, List.forall₂_map_right_iff, List.forall₂_same]⟩

theorem LedBy.exists_text {t : List Char} {as : List α} (h : LedBy sep P t as) {a : α}
    (ha : a ∈ as) : ∃ u, P u a := by
  obtain ⟨ts, -, hts⟩ := h
  obtain ⟨i, hi, rfl⟩ := List.getElem_of_mem ha
  exact ⟨_, hts.get (hts.length_eq ▸ hi) hi⟩

/-- A list is taken as its items are, each behind a separator. -/
theorem Takes.led (h : Takes item P) : Takes (led sep item) (LedBy sep P) := by
  intro cs as last hread
  fun_induction Reader.led sep item cs generalizing as last with
  | case1 =>
    cases hread
    exact ⟨[], rfl, [], rfl, .nil⟩
  | case2 | case3 => cases hread
  | case4 rest a after ha hle more last' hmore ih =>
    cases hread
    obtain ⟨t, rfl, ht⟩ := h _ _ _ ha
    obtain ⟨-, rfl, ts, rfl, hts⟩ := ih _ _ hmore
    exact ⟨sep :: t ++ ts.flatMap (sep :: ·), by simp, t :: ts, by simp, .cons ht hts⟩
  | case5 rest a after ha hle =>
    obtain ⟨t, rfl, -⟩ := h _ _ _ ha
    exact absurd (by simp) hle
  | case6 c rest hc =>
    cases hread
    exact ⟨[], rfl, [], rfl, .nil⟩

theorem Takes.joined (h : Takes item P) : Takes (joined sep item) (JoinedBy sep P) := by
  intro cs as last hread
  unfold Reader.joined at hread
  split at hread
  · cases hread
  next a rest ha =>
    split at hread
    · cases hread
    next more last' hmore =>
      cases hread
      obtain ⟨u, rfl, hu⟩ := h _ _ _ ha
      obtain ⟨v, rfl, hv⟩ := h.led _ _ _ hmore
      exact ⟨u ++ v, by simp, u, v, a, more, rfl, rfl, hu, hv⟩

theorem Takes.toEnd (h : Takes item P) {cs : List Char} {as : List α}
    (hread : toEnd sep item cs = .ok as) : LedBy sep P cs as := by
  unfold Reader.toEnd at hread
  split at hread
  · cases hread
  next items hitems =>
    cases hread
    obtain ⟨t, rfl, ht⟩ := h.led _ _ _ hitems
    simpa using ht
  · cases hread

variable {Follows : List Char → Prop} {t rest : List Char} {as : List α}
  (hitem : ∀ t a, P t a → ∀ rest, Follows rest → item (t ++ rest) = .ok (a, rest))
  (hsep : ∀ cs, Follows (sep :: cs))

include hitem hsep

/-- Where the texts of items are read as the items, a list of them is read. -/
theorem LedBy.reads (h : LedBy sep P t as) (hrest : Follows rest)
    (hstop : rest.head? ≠ some sep) : led sep item (t ++ rest) = .ok (as, rest) := by
  obtain ⟨ts, rfl, h⟩ := h
  have hreads : List.Forall₂ (Reads item Follows) (ts.map String.ofList) as := by
    rw [List.forall₂_map_left_iff]
    exact h.imp fun t a ht rest => by simpa using hitem t a ht rest
  simpa [ledText, List.flatMap_map] using led_ledText hsep hrest hstop hreads

theorem LedBy.reads_toEnd (h : LedBy sep P t as) (hnil : Follows []) :
    toEnd sep item t = .ok as := by
  have hread := h.reads hitem hsep hnil (by simp)
  rw [List.append_nil] at hread
  simp only [toEnd, hread]

theorem JoinedBy.reads (h : JoinedBy sep P t as) (hrest : Follows rest)
    (hstop : rest.head? ≠ some sep) : joined sep item (t ++ rest) = .ok (as, rest) := by
  obtain ⟨u, v, a, more, rfl, rfl, hu, hv⟩ := h
  have hfollows : Follows (v ++ rest) := by
    obtain ⟨ts, rfl, -⟩ := hv
    cases ts with
    | nil => exact hrest
    | cons t ts => exact hsep _
  simp only [joined, List.append_assoc, hitem u a hu _ hfollows, hv.reads hitem hsep hrest hstop]

end Taken

end Reader

end AchievementLang.Wire

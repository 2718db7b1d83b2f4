import AchievementLang.Proofs.Numeric.Shortest
import AchievementLang.Proofs.Wire.Field

/-!
# Values read back

A multiplier is written as an integer, or else as the nearest number of double precision. The text
of the latter may have an exponent, which no reader of numbers accepts; `IsPlain` are the
multipliers whose text has none. The main statement is `Reader.exists_value_wire_iff`: the text of
a value can be read exactly if all of its multipliers are plain. Where one is not, its term sticks
at the mark of the exponent.
-/

namespace AchievementLang.Wire

open Numeric

/-! ## The text of a multiplier -/

/-- The multiplier is an integer, or it is zero to double precision, or the shortest decimal of
the nearest number is written without an exponent. -/
def IsPlain (x : ℚ) : Prop :=
  x.den = 1 ∨ ∀ b, Binary64.nearest |x| = .finite b → (shortest b).IsPositional

theorem isPlain_one : IsPlain 1 := .inl rfl

/-- The sign in front of a number. -/
def IsSign (cs : List Char) : Prop := cs = [] ∨ cs = ['-']

theorem isSign_toList_ite (p : Prop) [Decidable p] : IsSign (if p then "-" else "").toList := by
  split
  · exact .inr rfl
  · exact .inl rfl

theorem toList_toString_int (n : Int) :
    ∃ sign, IsSign sign ∧ (toString n).toList = sign ++ Nat.toDigits 10 n.natAbs :=
  ⟨_, by split <;> simp [IsSign], Text.toList_toString_int n⟩

theorem abs_eq_ite (x : ℚ) : |x| = if x < 0 then -x else x := by
  split
  next h => exact abs_of_neg h
  next h => exact abs_of_nonneg (not_lt.1 h)

/-- **The text of a multiplier**: a sign, a numeral that may have a point, and behind it nothing or
an exponent, depending on whether the multiplier is plain. There is no colon in it. -/
theorem toList_numberText {x : ℚ} {s : String} (h : numberText? x = some s) :
    ∃ sign mantissa tail, IsSign sign ∧ IsPointed mantissa ∧
      s.toList = sign ++ (mantissa ++ tail) ∧
      (IsPlain x ∧ tail = [] ∨
        ¬ IsPlain x ∧ ∃ exponent, tail = 'e' :: exponent ∧ ':' ∉ exponent) := by
  unfold numberText? at h
  split at h
  next hden =>
    injection h with h
    obtain ⟨sign, hsign, e⟩ := toList_toString_int x.num
    exact ⟨sign, _, [], hsign, .inl (Text.isNumeral_toDigits _), by rw [← h, e, List.append_nil],
      .inl ⟨.inl hden, rfl⟩⟩
  next hden =>
    have hzero : IsPointed "0.0".toList :=
      .inr ⟨['0'], ['0'], isNumeral_replicate_zero (k := 1) (by decide),
        isNumeral_replicate_zero (k := 1) (by decide), rfl⟩
    unfold nearestText? at h
    dsimp only at h
    rw [← abs_eq_ite] at h
    split at h
    next h0 => exact absurd (h0 ▸ rfl) hden
    next h0 =>
      split at h
      next hnear =>
        injection h with h
        refine ⟨_, _, [], isSign_toList_ite (x < 0), hzero, ?_, .inl ⟨.inr ?_, rfl⟩⟩
        · rw [← h, String.toList_append, List.append_nil]
        · rw [hnear]
          exact fun b hb => by cases hb
      next b hnear =>
        injection h with h
        have hdigits := isNumeral_shortest (Binary64.value_pos_of_nearest hnear)
        have hplain : IsPlain x ↔ (shortest b).IsPositional := by
          rw [IsPlain, or_iff_right hden, hnear]
          simp
        by_cases hpos : (shortest b).IsPositional
        · refine ⟨_, _, [], isSign_toList_ite (x < 0), render_positional hdigits hpos, ?_,
            .inl ⟨hplain.2 hpos, rfl⟩⟩
          rw [← h, String.toList_append, List.append_nil]
        · obtain ⟨mantissa, tail, hmantissa, hcolon, e⟩ := render_scientific hdigits hpos
          refine ⟨_, mantissa, 'e' :: tail, isSign_toList_ite (x < 0), hmantissa, ?_,
            .inr ⟨fun hp => hpos (hplain.1 hp), tail, rfl, hcolon⟩⟩
          rw [← h, String.toList_append, e]
      next => cases h

theorem colon_not_mem_numberText {x : ℚ} {s : String} (h : numberText? x = some s) :
    ':' ∉ s.toList := by
  obtain ⟨sign, mantissa, tail, hsign, hm, e, htail⟩ := toList_numberText h
  have hsign' : ':' ∉ sign := by
    obtain rfl | rfl := hsign <;> decide
  have htail' : ':' ∉ tail := by
    obtain ⟨-, rfl⟩ | ⟨-, exponent, rfl, hexponent⟩ := htail
    · simp
    · simp [hexponent]
  simp [e, hsign', hm.colon_not_mem, htail']

/-- The number is not an integer and too large for double precision. -/
def IsLarge (x : ℚ) : Prop := x.den ≠ 1 ∧ overflowBound ≤ |x|

/-- **A multiplier has no text exactly if it is not an integer and too large for double
precision.** -/
theorem numberText?_eq_none_iff {x : ℚ} : numberText? x = none ↔ IsLarge x := by
  unfold numberText? IsLarge
  split
  next hden => simp [hden]
  next hden =>
    have h0 : x ≠ 0 := fun h => hden (h ▸ rfl)
    rw [← Binary64.nearest_eq_overflow_iff (abs_pos.2 h0), and_iff_right hden]
    unfold nearestText?
    dsimp only
    rw [if_neg h0, ← abs_eq_ite]
    cases Binary64.nearest |x| <;> simp

theorem Term.wire?_eq_none_iff {t : Term} : t.wire? = none ↔ IsLarge t.multiplier := by
  rw [← numberText?_eq_none_iff]
  unfold wire?
  split
  · simp
  · split
    next h => simp [h, numberText?]
    · simp

theorem Sum.wire?_eq_none_iff {s : Sum} :
    Sum.wire? s = none ↔ ∃ t ∈ s, IsLarge t.multiplier := by
  rw [Sum.wire?, Option.map_eq_none_iff]
  induction s with
  | nil => simp
  | cons t rest ih =>
    rw [List.mapM_cons]
    cases ht : t.wire? with
    | none => simpa using .inl (Term.wire?_eq_none_iff.1 ht)
    | some text =>
      have hsmall : ¬ IsLarge t.multiplier := fun h => by
        rw [Term.wire?_eq_none_iff.2 h] at ht
        cases ht
      cases hrest : rest.mapM Term.wire? with
      | none => simpa [hsmall] using ih.1 hrest
      | some texts =>
        rw [hrest] at ih
        simpa [hsmall] using ih

namespace Reader

/-! ## Numbers -/

/-- What may stand behind a number: no digit, and no point. -/
def NumberEnd (rest : List Char) : Prop := ∀ c ∈ rest.head?, Text.isDigit c = false ∧ c ≠ '.'

/-- A numeral is read as a number without decimals. -/
theorem unsignedNumber_numeral {ds rest : List Char} {n : Nat} (hds : Text.IsNumeral ds)
    (hn : Text.decimalValue? ds = some n) (negative : Bool) (hrest : NumberEnd rest) :
    unsignedNumber negative (ds ++ rest) = .ok (decimalNumber negative n ([], 0), rest) := by
  rw [unsignedNumber, digits_append hds hn fun c hc => (hrest c hc).1]
  cases rest with
  | nil => rfl
  | cons c rest =>
    have hc : c ≠ '.' := (hrest c rfl).2
    simp [hc]

/-- A point is left where no digit follows it; there is none behind a number. -/
theorem unsignedNumber_pointed {m : List Char} (hm : IsPointed m) (negative : Bool) :
    ∃ x, ∀ rest, NumberEnd rest → unsignedNumber negative (m ++ rest) = .ok (x, rest) := by
  obtain hm | ⟨whole, fraction, hwhole, hfraction, rfl⟩ := hm
  · obtain ⟨n, hn⟩ := hm.exists_value
    exact ⟨_, fun rest hrest => unsignedNumber_numeral hm hn negative hrest⟩
  · obtain ⟨n, hn⟩ := hwhole.exists_value
    obtain ⟨k, hk⟩ := hfraction.exists_value
    refine ⟨decimalNumber negative n (fraction, k), fun rest hrest => ?_⟩
    have hpoint : ∀ c ∈ ('.' :: (fraction ++ rest)).head?, Text.isDigit c = false := by
      rintro c ⟨⟩
      decide
    have hread := digits_append hfraction hk fun c hc => (hrest c hc).1
    rw [List.append_assoc, List.cons_append, unsignedNumber, digits_append hwhole hn hpoint]
    cases fraction with
    | nil => exact absurd rfl hfraction.1
    | cons d ds =>
      rw [List.cons_append] at hread
      simp only [List.cons_append, hfraction.isDigit d (by simp), if_true, hread]

theorem IsPointed.head {m : List Char} (hm : IsPointed m) :
    ∃ c cs, m = c :: cs ∧ Text.isDigit c = true := by
  obtain hm | ⟨whole, fraction, hm, -, rfl⟩ := hm
  · obtain ⟨c, cs, rfl⟩ := List.exists_cons_of_ne_nil hm.1
    exact ⟨c, cs, rfl, hm.isDigit c (by simp)⟩
  · obtain ⟨c, cs, rfl⟩ := List.exists_cons_of_ne_nil hm.1
    exact ⟨c, _, List.cons_append, hm.isDigit c (by simp)⟩

/-- A number that starts with a digit has no sign. -/
theorem number_digit {c : Char} (hc : Text.isDigit c = true) (cs : List Char) :
    number (c :: cs) = unsignedNumber false (c :: cs) := by
  have hminus : c ≠ '-' := by rintro rfl; revert hc; decide
  simp [number, hminus]

theorem number_pointed {sign m : List Char} (hsign : IsSign sign) (hm : IsPointed m) :
    ∃ x, ∀ rest, NumberEnd rest → number (sign ++ (m ++ rest)) = .ok (x, rest) := by
  obtain rfl | rfl := hsign
  · obtain ⟨x, hx⟩ := unsignedNumber_pointed hm false
    refine ⟨x, fun rest hrest => ?_⟩
    obtain ⟨c, cs, rfl, hc⟩ := IsPointed.head hm
    rw [← hx rest hrest]
    exact number_digit hc _
  · obtain ⟨x, hx⟩ := unsignedNumber_pointed hm true
    exact ⟨x, hx⟩

/-- What may stand behind a term: nothing, the next term or the next alternative. -/
def TermEnd (rest : List Char) : Prop := ∀ c ∈ rest.head?, c = '_' ∨ c = '$'

theorem TermEnd.numberEnd {rest : List Char} (h : TermEnd rest) : NumberEnd rest := fun c hc => by
  obtain rfl | rfl := h c hc <;> decide

theorem TermEnd.delimited {rest : List Char} (h : TermEnd rest) : Delimited rest := fun c hc => by
  obtain rfl | rfl := h c hc <;> decide

theorem numberEnd_mark (tail : List Char) : NumberEnd ('e' :: tail) := by
  rintro c ⟨⟩
  decide

/-- The text of a plain multiplier is read to its end. -/
theorem number_numberText {x : ℚ} {s : String} (h : numberText? x = some s) (hx : IsPlain x) :
    ∃ y, ∀ rest, TermEnd rest → number (s.toList ++ rest) = .ok (y, rest) := by
  obtain ⟨sign, mantissa, tail, hsign, hm, e, ⟨-, rfl⟩ | ⟨hno, -⟩⟩ := toList_numberText h
  · obtain ⟨y, hy⟩ := number_pointed hsign hm
    refine ⟨y, fun rest hrest => ?_⟩
    rw [e, List.append_nil, List.append_assoc, hy rest hrest.numberEnd]
  · exact absurd hx hno

/-- The text of any other multiplier is read up to its exponent. -/
theorem number_numberText_mark {x : ℚ} {s : String} (h : numberText? x = some s)
    (hx : ¬ IsPlain x) (rest : List Char) :
    ∃ y tail, number (s.toList ++ rest) = .ok (y, 'e' :: tail) := by
  obtain ⟨sign, mantissa, tail, hsign, hm, e, ⟨hyes, -⟩ | ⟨-, exponent, rfl, -⟩⟩ :=
    toList_numberText h
  · exact absurd hyes hx
  · obtain ⟨y, hy⟩ := number_pointed hsign hm
    refine ⟨y, exponent ++ rest, ?_⟩
    rw [e, List.append_assoc, List.append_assoc, List.cons_append, hy _ (numberEnd_mark _)]

end Reader

/-! ## Terms -/

/-- The term is a constant, or its field is well formed. -/
def Term.WellFormed (t : Term) : Prop := ∀ f ∈ t.field, f.WellFormed

/-- The value has alternatives, each of which has terms, all of them well formed. -/
def Value.WellFormed (v : Value) : Prop := v ≠ [] ∧ ∀ s ∈ v, s ≠ [] ∧ ∀ t ∈ s, t.WellFormed

/-- Every multiplier of the value is plain. -/
def Value.IsPlain (v : Value) : Prop := ∀ s ∈ v, ∀ t ∈ s, Wire.IsPlain t.multiplier

namespace Reader

variable {rest : List Char}

theorem term_field {f : Field} (hf : f.WellFormed) (h : Delimited rest) :
    term (f.wire.toList ++ rest) = multiplied f rest := by
  obtain ⟨c, cs, e, hc⟩ := hf.wire_eq_cons
  have hv : c ≠ 'v' := by
    rintro rfl
    revert hc
    decide
  have hread := field_wire hf h
  rw [e, List.cons_append] at hread ⊢
  rw [term]
  · simp only [hread]
  · rintro cs' ⟨⟩
    exact hv rfl

theorem multiplied_termEnd (f : Field) (h : TermEnd rest) :
    multiplied f rest = .ok (⟨some f, 1⟩, rest) := by
  cases rest with
  | nil => rfl
  | cons c rest => obtain rfl | rfl := h c rfl <;> rfl

/-- A term with a plain multiplier is read to its end, any other up to the exponent. -/
theorem reads_or_sticks_term {t : Term} {s : String} (ht : t.WellFormed) (h : t.wire? = some s) :
    Wire.IsPlain t.multiplier ∧ (∃ u, Reads term TermEnd s u) ∨
      ¬ Wire.IsPlain t.multiplier ∧ Sticks 'e' term TermEnd s := by
  obtain ⟨field, x⟩ := t
  unfold Term.wire? at h
  split at h
  next hfield =>
    obtain rfl : field = none := hfield
    obtain ⟨text, htext, rfl⟩ := Option.map_eq_some_iff.1 h
    by_cases hx : Wire.IsPlain x
    · obtain ⟨y, hy⟩ := number_numberText htext hx
      refine .inl ⟨hx, .constant y, fun rest hrest => ?_⟩
      simp [term, hy rest hrest]
    · refine .inr ⟨hx, fun rest _ => ?_⟩
      obtain ⟨y, tail, e⟩ := number_numberText_mark htext hx rest
      exact ⟨.constant y, tail, by simp [term, e]⟩
  next f hfield =>
    obtain rfl : field = some f := hfield
    have hf : f.WellFormed := ht f rfl
    split at h
    next hone =>
      obtain rfl : x = 1 := hone
      injection h with h
      refine .inl ⟨isPlain_one, ⟨some f, 1⟩, fun rest hrest => ?_⟩
      rw [← h, term_field hf hrest.delimited, multiplied_termEnd f hrest]
    next hone =>
      obtain ⟨text, htext, rfl⟩ := Option.map_eq_some_iff.1 h
      have hterm (rest : List Char) : term ((f.wire ++ "*" ++ text).toList ++ rest) =
          multiplied f ('*' :: (text.toList ++ rest)) := by
        rw [← term_field hf (delimited_cons (by decide) _)]
        simp
      by_cases hx : Wire.IsPlain x
      · obtain ⟨y, hy⟩ := number_numberText htext hx
        refine .inl ⟨hx, ⟨some f, y⟩, fun rest hrest => ?_⟩
        rw [hterm, multiplied, hy rest hrest]
      · refine .inr ⟨hx, fun rest _ => ?_⟩
        obtain ⟨y, tail, e⟩ := number_numberText_mark htext hx rest
        exact ⟨⟨some f, y⟩, tail, by rw [hterm, multiplied, e]⟩

/-! ## Sums and values -/

/-- What may stand behind a sum: nothing, or the next alternative. -/
def SumEnd (rest : List Char) : Prop := ∀ c ∈ rest.head?, c = '$'

/-- What holds of each member of a list and its text holds of the list and its texts. -/
theorem forall₂_of_mapM {α : Type} {f : α → Option String} {r : α → String → Prop} {as : List α}
    {ts : List String} (h : as.mapM f = some ts) (hr : ∀ a ∈ as, ∀ t, f a = some t → r a t) :
    List.Forall₂ r as ts := by
  induction as generalizing ts with
  | nil =>
    cases h
    exact .nil
  | cons a as ih =>
    simp only [List.mapM_cons, Option.pure_def, Option.bind_eq_bind, Option.bind_eq_some_iff,
      Option.some.injEq] at h
    obtain ⟨t, ht, ts, hts, rfl⟩ := h
    exact .cons (hr a (by simp) t ht) (ih hts fun b hb => hr b (by simp [hb]))

/-- A sum with plain multipliers is read to its end, any other up to an exponent. -/
theorem reads_or_sticks_sum {s : Sum} {text : String} (hne : s ≠ [])
    (hs : ∀ t ∈ s, t.WellFormed) (h : s.wire? = some text) :
    (∀ t ∈ s, Wire.IsPlain t.multiplier) ∧ (∃ u, Reads (joined '_' term) SumEnd text u) ∨
      (¬ ∀ t ∈ s, Wire.IsPlain t.multiplier) ∧ Sticks 'e' (joined '_' term) SumEnd text := by
  obtain ⟨texts, htexts, rfl⟩ := Option.map_eq_some_iff.1 h
  have hterms : List.Forall₂ (fun t text => Wire.IsPlain t.multiplier ∧
      (∃ u, Reads term TermEnd text u) ∨
        ¬ Wire.IsPlain t.multiplier ∧ Sticks 'e' term TermEnd text) s texts :=
    forall₂_of_mapM htexts fun t ht text e => reads_or_sticks_term (hs t ht) e
  exact reads_or_sticks_intercalate SumEnd (fun cs => by simp [TermEnd])
    (fun cs hcs c hc => .inr (hcs c hc)) (fun cs hcs e => absurd (hcs '_' e) (by decide))
    (by decide) hne hterms

/-- A value is alternatives up to the end of the text. -/
theorem value_eq_ok_iff (cs : List Char) (v : Value) :
    value cs = .ok v ↔ joined '$' (joined '_' term) cs = .ok (v, []) := by
  unfold value
  rw [joined.eq_1 '$']
  cases joined '_' term cs with
  | error e => simp
  | ok first =>
    obtain ⟨s, rest⟩ := first
    simp only [toEnd]
    cases led '$' (joined '_' term) rest with
    | error e => simp
    | ok more =>
      obtain ⟨v', _ | ⟨c, tail⟩⟩ := more <;> simp

/-- **The text of a value can be read exactly if its multipliers are plain.** -/
theorem exists_value_wire_iff {v : Value} {text : String} (hv : v.WellFormed)
    (h : v.wire? = some text) : (∃ u, value text.toList = .ok u) ↔ v.IsPlain := by
  obtain ⟨texts, htexts, rfl⟩ := Option.map_eq_some_iff.1 h
  have hsums : List.Forall₂ (fun s text => (∀ t ∈ s, Wire.IsPlain t.multiplier) ∧
      (∃ u, Reads (joined '_' term) SumEnd text u) ∨
        (¬ ∀ t ∈ s, Wire.IsPlain t.multiplier) ∧ Sticks 'e' (joined '_' term) SumEnd text)
      v texts :=
    forall₂_of_mapM htexts fun s hs text e =>
      reads_or_sticks_sum (hv.2 s hs).1 (hv.2 s hs).2 e
  have hvalue := reads_or_sticks_intercalate (fun cs => cs = [])
    (fun cs => by simp [SumEnd]) (fun cs hcs => by simp [SumEnd, hcs])
    (fun cs hcs => by simp [hcs]) (by decide : 'e' ≠ '$') hv.1 hsums
  simp only [value_eq_ok_iff]
  obtain ⟨hplain, u, hu⟩ | ⟨hplain, hstick⟩ := hvalue
  · have read := hu [] rfl
    rw [List.append_nil] at read
    exact iff_of_true ⟨u, read⟩ hplain
  · obtain ⟨u, tail, e⟩ := hstick [] rfl
    rw [List.append_nil] at e
    refine iff_of_false ?_ hplain
    rintro ⟨w, hw⟩
    have := e.symm.trans hw
    simp at this

end Reader

end AchievementLang.Wire

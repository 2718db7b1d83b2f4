import AchievementLang.Proofs.Wire.Value

/-!
# Values with integer multipliers read back

An integer is written exactly, so a term with an integer multiplier is read back as it was
(`Reader.exists_reads_term`), whether another term, another alternative or the end follows. Hence
so is a sum (`Reader.exists_reads_sum`) and, whatever terms and alternatives stand side by side, a
value (`readValue_wire`).
-/

namespace AchievementLang.Wire

/-- The multiplier, or the constant, is an integer. -/
def Term.IsIntegral (t : Term) : Prop := t.multiplier.den = 1

/-- All multipliers and constants of the value are integers. -/
def Value.IsIntegral (v : Value) : Prop := ∀ s ∈ v, ∀ t ∈ s, t.IsIntegral

instance : DecidablePred Term.IsIntegral := fun t =>
  inferInstanceAs (Decidable (t.multiplier.den = 1))

instance : DecidablePred Value.IsIntegral := fun v =>
  inferInstanceAs (Decidable (∀ s ∈ v, ∀ t ∈ s, t.IsIntegral))

instance : DecidablePred Term.WellFormed := fun t =>
  inferInstanceAs (Decidable (∀ f ∈ t.field, f.WellFormed))

instance : DecidablePred Value.WellFormed := fun v =>
  inferInstanceAs (Decidable (v ≠ [] ∧ ∀ s ∈ v, s ≠ [] ∧ ∀ t ∈ s, t.WellFormed))

namespace Reader

/-! ## Integers -/

theorem decimalNumber_whole (negative : Bool) (n : Nat) :
    decimalNumber negative n ([], 0) = if negative then -(n : ℚ) else n := by
  simp [decimalNumber, Rat.mkRat_one]

/-- **An integer is read back** in front of what is neither a digit nor a point. -/
theorem number_toString (n : ℤ) {rest : List Char} (hrest : NumberEnd rest) :
    number ((toString n).toList ++ rest) = .ok ((n : ℚ), rest) := by
  have hdigits := Text.isNumeral_toDigits n.natAbs
  have hread (negative : Bool) :=
    unsignedNumber_numeral hdigits (Text.decimalValue?_toDigits n.natAbs) negative hrest
  rw [Text.toList_toString_int]
  by_cases hn : n < 0
  · have habs : -(n.natAbs : ℚ) = n := by
      rw [Nat.cast_natAbs, abs_of_neg hn, Int.cast_neg, neg_neg]
    rw [if_pos hn, ← habs]
    exact (hread true).trans (by rw [decimalNumber_whole, if_pos rfl])
  · have habs : (n.natAbs : ℚ) = n := by
      rw [Nat.cast_natAbs, abs_of_nonneg (not_lt.1 hn)]
    -- Only a minus sign would be read as one, and a numeral starts with a digit.
    obtain ⟨c, cs, e⟩ := List.exists_cons_of_ne_nil hdigits.1
    have hc : Text.isDigit c = true := hdigits.isDigit c (by simp [e])
    rw [if_neg hn, List.nil_append, ← habs, e, List.cons_append, number_digit hc,
      ← List.cons_append, ← e, hread false, decimalNumber_whole, if_neg Bool.false_ne_true]

/-- The text of an integer multiplier is read back to its end. -/
theorem exists_reads_numberText {x : ℚ} (hx : x.den = 1) :
    ∃ text, numberText? x = some text ∧ Reads number NumberEnd text x := by
  refine ⟨toString x.num, if_pos hx, fun rest hrest => ?_⟩
  rw [number_toString x.num hrest, (Rat.den_eq_one_iff x).1 hx]

/-! ## Terms -/

/-- **A term with an integer multiplier is read back** in front of another term, another
alternative or the end. -/
theorem exists_reads_term {t : Term} (ht : t.WellFormed) (hint : t.IsIntegral) :
    ∃ text, t.wire? = some text ∧ Reads term TermEnd text t := by
  obtain ⟨field, x⟩ := t
  obtain ⟨text, htext, hread⟩ := exists_reads_numberText hint
  cases field with
  | none =>
    refine ⟨"v" ++ text, by simp [Term.wire?, htext], fun rest hrest => ?_⟩
    simp [term, hread rest hrest.numberEnd, Term.constant]
  | some f =>
    have hf : f.WellFormed := ht f rfl
    by_cases hone : x = 1
    · subst hone
      refine ⟨f.wire, by simp [Term.wire?], fun rest hrest => ?_⟩
      rw [term_field hf hrest.delimited, multiplied_termEnd f hrest]
    · refine ⟨f.wire ++ "*" ++ text, by simp [Term.wire?, hone, htext], fun rest hrest => ?_⟩
      have hfront : (f.wire ++ "*" ++ text).toList ++ rest =
          f.wire.toList ++ '*' :: (text.toList ++ rest) := by simp
      rw [hfront, term_field hf (delimited_cons (by decide) _), multiplied,
        hread rest hrest.numberEnd]

/-! ## Sums and values -/

section Joined

variable {α : Type} {f : α → Option String} {item : Reader α} {Follows Ends : List Char → Prop}
  {as : List α}

theorem exists_mapM_reads (h : ∀ a ∈ as, ∃ t, f a = some t ∧ Reads item Follows t a) :
    ∃ ts, as.mapM f = some ts ∧ List.Forall₂ (Reads item Follows) ts as := by
  induction as with
  | nil => exact ⟨[], rfl, .nil⟩
  | cons a as ih =>
    obtain ⟨t, ht, hread⟩ := h a List.mem_cons_self
    obtain ⟨ts, hts, hreads⟩ := ih fun b hb => h b (List.mem_cons_of_mem a hb)
    exact ⟨t :: ts, by simp [ht, hts], .cons hread hreads⟩

variable (Ends) in
/-- What is read back one by one is read back when it is joined by a separator. -/
theorem exists_reads_joined (sep : Char) (hsep : ∀ cs, Follows (sep :: cs))
    (hends : ∀ cs, Ends cs → Follows cs) (hstop : ∀ cs, Ends cs → cs.head? ≠ some sep)
    (hne : as ≠ []) (h : ∀ a ∈ as, ∃ t, f a = some t ∧ Reads item Follows t a) :
    ∃ ts, as.mapM f = some ts ∧
      Reads (joined sep item) Ends ((String.singleton sep).intercalate ts) as := by
  obtain ⟨ts, htexts, hreads⟩ := exists_mapM_reads h
  refine ⟨ts, htexts, ?_⟩
  cases ts with
  | nil =>
    cases hreads
    exact absurd rfl hne
  | cons t ts => exact reads_intercalate hsep hends hstop hreads

end Joined

/-- **A sum with integer multipliers is read back** in front of another alternative or the end. -/
theorem exists_reads_sum {s : Sum} (hne : s ≠ []) (hs : ∀ t ∈ s, t.WellFormed)
    (hint : ∀ t ∈ s, t.IsIntegral) :
    ∃ text, s.wire? = some text ∧ Reads (joined '_' term) SumEnd text s := by
  obtain ⟨ts, hts, hread⟩ := exists_reads_joined SumEnd '_' (fun _ => by simp [TermEnd])
    (fun _ hcs c hc => .inr (hcs c hc)) (fun _ hcs e => absurd (hcs '_' e) (by decide)) hne
    fun t ht => exists_reads_term (hs t ht) (hint t ht)
  exact ⟨_, by rw [Sum.wire?, hts]; rfl, hread⟩

end Reader

/-- **Reading a value undoes writing it** where all multipliers and constants are integers. -/
theorem readValue_wire {v : Value} (hv : v.WellFormed) (hint : v.IsIntegral) :
    ∃ text, v.wire? = some text ∧ ∀ offset, readValue text offset = .ok v := by
  obtain ⟨ts, hts, hread⟩ := Reader.exists_reads_joined (fun cs => cs = []) '$'
    (fun _ => by simp [Reader.SumEnd]) (fun _ hcs => by simp [Reader.SumEnd, hcs])
    (fun _ hcs => by simp [hcs]) hv.1
    fun s hs => Reader.exists_reads_sum (hv.2 s hs).1 (hv.2 s hs).2 (hint s hs)
  refine ⟨"$".intercalate ts, by rw [Value.wire?, hts]; rfl, fun offset => ?_⟩
  have hvalue : Reader.value ("$".intercalate ts).toList = .ok v := by
    rw [Reader.value_eq_ok_iff, ← hread [] rfl, List.append_nil]
    rfl
  rw [readValue, readAt, hvalue]

/-- Digits side by side: an address of eight digits in front of a literal, a sign behind each of
the marks that stand before a number, and multipliers that are left out, or zero. -/
theorem readValue_wire_adjacent :
    let v : Value := [[⟨some (.memory .word ⟨0xabcdef01, by decide⟩), 1⟩,
        ⟨some (.literal ⟨17, by decide⟩), -3⟩, .constant (-4)],
      [.constant 0, ⟨some (.previous (.bit 6) ⟨0x5, by decide⟩), 0⟩], [⟨some (.literal .zero), 1⟩]]
    v.WellFormed ∧ v.IsIntegral ∧
      ∃ text, v.wire? = some text ∧ ∀ offset, readValue text offset = .ok v :=
  ⟨by decide, by decide, readValue_wire (by decide) (by decide)⟩

end AchievementLang.Wire

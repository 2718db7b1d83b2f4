import AchievementLang.Proofs.Text.Case

/-!
# Digits without a place value

Superscripts, circled numbers and their like pass for digits, but a run of digits with one of them
in it has no value. `withValue` exchanges each such digit for one with a place value: neither digit
is an ASCII character (`withValue_eq_iff`), and the one is a digit just as the other
(`isDigit_withValue`), so a text in which they are exchanged differs in nothing but the values of
its runs of digits.
-/

namespace AchievementLang.Text

/-- The character passes for a digit, but has no place value. -/
def lacksValue (c : Char) : Bool := isDigit c && (decimalDigit? c).isNone

/-- The character, or another digit with a place value if it lacks one. The other digit is not an
ASCII digit, which could start an address or go on with one. -/
def withValue (c : Char) : Char := if lacksValue c then '٣' else c

/-- Every digit in the text has a place value. -/
def HasValues (cs : List Char) : Prop := ∀ c ∈ cs, lacksValue c = false

/-- The ranges of the digits without a place value. -/
theorem exists_range_of_lacksValue {c : Char} (h : lacksValue c = true) :
    ∃ r ∈ plainDigits, r.1 ≤ c.toNat ∧ c.toNat ≤ r.2 := by
  have hplain : plainDigits.contains c = true := by
    simp only [lacksValue, isDigit, Bool.and_eq_true, Bool.or_eq_true, Option.isNone_iff_eq_none]
      at h
    obtain ⟨hsome | hplain, hnone⟩ := h
    · rw [hnone] at hsome
      cases hsome
    · exact hplain
  obtain ⟨r, hr, hin⟩ := List.any_eq_true.1 hplain
  simp only [Bool.and_eq_true, decide_eq_true_eq] at hin
  exact ⟨r, hr, hin⟩

theorem forall_lacksValue {p : Char → Prop}
    (h : ∀ r ∈ plainDigits, ∀ k < r.2 + 1 - r.1, p (Char.ofNat (r.1 + k))) {c : Char}
    (hc : lacksValue c = true) : p c := by
  obtain ⟨r, hr, hin⟩ := exists_range_of_lacksValue hc
  have hp := h r hr (c.toNat - r.1) (by omega)
  rwa [show r.1 + (c.toNat - r.1) = c.toNat by omega, Char.ofNat_toNat] at hp

theorem toNat_of_lacksValue {c : Char} (h : lacksValue c = true) : 128 ≤ c.toNat := by
  refine forall_lacksValue (p := fun c => 128 ≤ c.toNat) ?_ h
  decide +kernel

theorem isHexDigit_of_lacksValue {c : Char} (h : lacksValue c = true) : isHexDigit c = false := by
  refine forall_lacksValue (p := fun c => isHexDigit c = false) ?_ h
  decide +kernel

/-- Digits without a place value have no upper case. -/
theorem upperChar_of_lacksValue {c : Char} (h : lacksValue c = true) : upperChar c = [c] := by
  have hruns : ∀ r ∈ plainDigits, ∀ run ∈ upperRuns, r.2 < run.1 ∨ run.2.1 < r.1 := by
    decide +kernel
  have hexpansions : ∀ r ∈ plainDigits, ∀ e ∈ upperExpansions, e.1 < r.1 ∨ r.2 < e.1 := by
    decide +kernel
  obtain ⟨r, hr, hlo, hhi⟩ := exists_range_of_lacksValue h
  have himage : upperRuns.image? c.toNat = none := by
    refine image?_eq_none fun run hrun => ?_
    have := hruns r hr run hrun
    omega
  have hlookup : upperExpansions.lookup c.toNat = none := by
    rw [List.lookup_eq_none_iff]
    intro e he
    have := hexpansions r hr e he
    rw [bne_iff_ne]
    omega
  rw [upperChar, hlookup, himage]
  simp

theorem withValue_of_lacksValue {c : Char} (h : lacksValue c = true) : withValue c = '٣' := by
  rw [withValue, if_pos h]

theorem withValue_of_not {c : Char} (h : lacksValue c = false) : withValue c = c := by
  simp [withValue, h]

theorem isDigit_withValue (c : Char) : isDigit (withValue c) = isDigit c := by
  cases h : lacksValue c with
  | false => rw [withValue_of_not h]
  | true =>
    have hc : isDigit c = true := by
      rw [lacksValue, Bool.and_eq_true] at h
      exact h.1
    rw [withValue_of_lacksValue h, hc]
    decide +kernel

theorem isHexDigit_withValue (c : Char) : isHexDigit (withValue c) = isHexDigit c := by
  cases h : lacksValue c with
  | false => rw [withValue_of_not h]
  | true =>
    rw [withValue_of_lacksValue h, isHexDigit_of_lacksValue h]
    decide +kernel

theorem isSome_decimalDigit?_withValue {c : Char} (h : isDigit c = true) :
    (decimalDigit? (withValue c)).isSome = true := by
  cases hc : lacksValue c with
  | false =>
    rw [withValue_of_not hc]
    simpa [lacksValue, h, ← Option.not_isSome] using hc
  | true =>
    rw [withValue_of_lacksValue hc]
    decide +kernel

/-- Digits are exchanged for one another only outside of ASCII. -/
theorem withValue_eq_iff {p : Char} (hp : p.toNat < 128) (c : Char) : withValue c = p ↔ c = p := by
  cases h : lacksValue c with
  | false => rw [withValue_of_not h]
  | true =>
    have hc := toNat_of_lacksValue h
    rw [withValue_of_lacksValue h]
    constructor
    · rintro rfl
      exact absurd hp (by decide)
    · rintro rfl
      omega

theorem lacksValue_of_ascii {c : Char} (hc : c.toNat < 128) : lacksValue c = false := by
  cases h : lacksValue c with
  | false => rfl
  | true =>
    have := toNat_of_lacksValue h
    omega

namespace HasValues

variable {cs ds : List Char}

theorem nil : HasValues [] := by simp [HasValues]

theorem cons {c : Char} (hc : lacksValue c = false) (h : HasValues cs) : HasValues (c :: cs) :=
  List.forall_mem_cons.2 ⟨hc, h⟩

theorem append (hcs : HasValues cs) (hds : HasValues ds) : HasValues (cs ++ ds) :=
  List.forall_mem_append.2 ⟨hcs, hds⟩

/-- A text whose digits all have a place value stays as it is. -/
theorem map_withValue (h : HasValues cs) : cs.map withValue = cs := by
  conv_rhs => rw [← List.map_id cs]
  exact List.map_congr_left fun c hc => withValue_of_not (h c hc)

theorem of_ascii (h : ∀ c ∈ cs, c.toNat < 128) : HasValues cs :=
  fun c hc => lacksValue_of_ascii (h c hc)

end HasValues

/-- A text has a first digit without a place value, or none. -/
theorem hasValues_or_exists (cs : List Char) :
    HasValues cs ∨ ∃ taken c rest, cs = taken ++ c :: rest ∧ lacksValue c = true := by
  by_cases h : ∃ c ∈ cs, lacksValue c = true
  · obtain ⟨c, hc, hlacks⟩ := h
    obtain ⟨taken, rest, rfl⟩ := List.append_of_mem hc
    exact .inr ⟨taken, c, rest, rfl, hlacks⟩
  · refine .inl fun c hc => ?_
    rw [← Bool.not_eq_true]
    exact fun hlacks => h ⟨c, hc, hlacks⟩

end AchievementLang.Text

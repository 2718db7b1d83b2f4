import AchievementLang.Text.Digit
import AchievementLang.Text.Hex
import Mathlib.Data.List.Basic
import Mathlib.Data.List.Induction
import Mathlib.Data.List.TakeWhile

/-!
# Numerals read back

The digits that are written for a number are digits of the base, at least one of them, and their
value is the number: `decimalValue?_toDigits` in base ten, `hexValue_hexPadded` in base sixteen,
whatever the padding, and in capitals too (`hexValue_upperHexPadded`). A run of digits ends where
the rest of the text does not start with one (`takeWhile_append_of_head`,
`dropWhile_append_of_head`).
-/

namespace AchievementLang.Text

/-! ## Runs of characters -/

section Runs

variable {p : Char → Bool} {run rest : List Char}

theorem takeWhile_append_of_head (hrun : ∀ c ∈ run, p c = true)
    (hrest : ∀ c ∈ rest.head?, p c = false) : (run ++ rest).takeWhile p = run := by
  rw [List.takeWhile_append_of_pos hrun]
  cases rest with
  | nil => simp
  | cons c rest => simp [hrest c rfl]

theorem dropWhile_append_of_head (hrun : ∀ c ∈ run, p c = true)
    (hrest : ∀ c ∈ rest.head?, p c = false) : (run ++ rest).dropWhile p = rest := by
  rw [List.dropWhile_append_of_pos hrun]
  cases rest with
  | nil => rfl
  | cons c rest => simp [hrest c rfl]

end Runs

/-- The digits of a number are characters of digits below the base. -/
theorem exists_digitChar_of_mem_toDigits {b n : Nat} {c : Char} (hb : 1 < b)
    (h : c ∈ Nat.toDigits b n) : ∃ m < b, c = m.digitChar := by
  induction n using Nat.strongRecOn with
  | ind n ih =>
    by_cases hn : n < b
    · rw [Nat.toDigits_of_lt_base hn, List.mem_singleton] at h
      exact ⟨n, hn, h⟩
    · rw [Nat.toDigits_of_base_le hb (by omega), List.mem_append, List.mem_singleton] at h
      rcases h with h | h
      · exact ih (n / b) (Nat.div_lt_self (by omega) hb) h
      · exact ⟨n % b, Nat.mod_lt _ (by omega), h⟩

/-! ## ASCII -/

/-- What holds of the first 128 characters holds of every ASCII character. -/
theorem forall_ascii {p : Char → Prop} (h : ∀ n < 128, p (Char.ofNat n)) {c : Char}
    (hc : c.toNat < 128) : p c := by
  have hp := h c.toNat hc
  rwa [Char.ofNat_toNat] at hp

theorem toNat_lt_of_isHexDigit {c : Char} (h : isHexDigit c = true) : c.toNat < 128 := by
  have hval : c.toNat = c.val.toNat := rfl
  grind [isHexDigit, hexDigit?, Char.le_def, UInt32.le_iff_toNat_le]

/-! ## Base ten -/

theorem decimalDigit?_digitChar {n : Nat} (h : n < 10) : decimalDigit? n.digitChar = some n := by
  have all : ∀ m < 10, decimalDigit? m.digitChar = some m := by decide
  exact all n h

theorem isDigit_digitChar {n : Nat} (h : n < 10) : isDigit n.digitChar = true := by
  rw [isDigit, decimalDigit?_digitChar h]
  rfl

theorem decimalValue?_concat (ds : List Char) (d : Char) :
    decimalValue? (ds ++ [d]) =
      (decimalValue? ds).bind fun n => (decimalDigit? d).map (10 * n + ·) := by
  simp only [decimalValue?, List.foldlM_append, List.foldlM_cons, List.foldlM_nil, bind_pure]
  rfl

theorem isSome_of_decimalValue? {ds : List Char} {n : Nat} (h : decimalValue? ds = some n) :
    ∀ c ∈ ds, (decimalDigit? c).isSome = true := by
  induction ds using List.reverseRecOn generalizing n with
  | nil => simp
  | append_singleton ds d ih =>
    rw [decimalValue?_concat] at h
    obtain ⟨m, hm, hd⟩ := Option.bind_eq_some_iff.1 h
    obtain ⟨k, hk, -⟩ := Option.map_eq_some_iff.1 hd
    intro c hc
    obtain hc | hc := List.mem_append.1 hc
    · exact ih hm c hc
    · rw [List.mem_singleton.1 hc, hk]
      rfl

/-- The digits of a number have the number as their value. -/
theorem decimalValue?_toDigits (n : Nat) : decimalValue? (Nat.toDigits 10 n) = some n := by
  induction n using Nat.strongRecOn with
  | ind n ih =>
    by_cases h : n < 10
    · rw [Nat.toDigits_of_lt_base h, ← List.nil_append [_], decimalValue?_concat]
      simp [decimalValue?, decimalDigit?_digitChar h]
    · rw [Nat.toDigits_of_base_le (by decide) (by omega), decimalValue?_concat,
        ih (n / 10) (by omega), decimalDigit?_digitChar (Nat.mod_lt _ (by decide))]
      simp only [Option.bind_some, Option.map_some, Option.some.injEq]
      omega

theorem decimalDigit?_of_isDigit {c : Char} (h : c.isDigit = true) :
    decimalDigit? c = some (c.toNat - '0'.toNat) := by
  have hc : c.toNat < 128 := by
    have hval : c.toNat = c.val.toNat := rfl
    grind [Char.isDigit, UInt32.le_iff_toNat_le]
  refine forall_ascii (p := fun c => c.isDigit = true →
    decimalDigit? c = some (c.toNat - '0'.toNat)) ?_ hc h
  decide +kernel

/-- The only ASCII characters with a place value are the ASCII digits. -/
theorem isDigit_of_isSome_decimalDigit? {c : Char} (hc : c.toNat < 128)
    (h : (decimalDigit? c).isSome = true) : c.isDigit = true := by
  refine forall_ascii (p := fun c => (decimalDigit? c).isSome = true → c.isDigit = true) ?_ hc h
  decide +kernel

theorem decimalValue?_eq_ofDigitChars {ds : List Char} (h : ∀ c ∈ ds, c.isDigit = true) :
    decimalValue? ds = some (Nat.ofDigitChars 10 ds 0) := by
  induction ds using List.reverseRecOn with
  | nil => rfl
  | append_singleton ds d ih =>
    rw [decimalValue?_concat, ih fun c hc => h c (by simp [hc]),
      decimalDigit?_of_isDigit (h d (by simp)), Nat.ofDigitChars_append]
    rfl

theorem isDigit_of_mem_toDigits {n : Nat} {c : Char} (h : c ∈ Nat.toDigits 10 n) :
    isDigit c = true := by
  obtain ⟨m, hm, rfl⟩ := exists_digitChar_of_mem_toDigits (by decide) h
  exact isDigit_digitChar hm

/-- Only the digits of zero start with a zero. -/
theorem head?_toDigits_ne {n : Nat} (hn : n ≠ 0) : (Nat.toDigits 10 n).head? ≠ some '0' := by
  induction n using Nat.strongRecOn with
  | ind n ih =>
    by_cases h : n < 10
    · have all : ∀ m < 10, m ≠ 0 → m.digitChar ≠ '0' := by decide
      simpa [Nat.toDigits_of_lt_base h] using all n h hn
    · obtain ⟨c, cs, e⟩ := List.exists_cons_of_ne_nil
        (Nat.toDigits_ne_nil (n := n / 10) (b := 10))
      have first := ih (n / 10) (by omega) (by omega)
      rw [Nat.toDigits_of_base_le (by decide) (by omega), e]
      rwa [e] at first

/-- An integer is written as the digits of its size, with a minus sign if it is negative. -/
theorem toList_toString_int (n : Int) :
    (toString n).toList = (if n < 0 then ['-'] else []) ++ Nat.toDigits 10 n.natAbs := by
  cases n with
  | ofNat n => exact Nat.toList_repr
  | negSucc n => simp [toString, Int.repr]

/-! ## Numerals in base ten -/

/-- At least one digit, and only digits with a place value. -/
def IsNumeral (ds : List Char) : Prop := ds ≠ [] ∧ ∀ c ∈ ds, (decimalDigit? c).isSome = true

theorem isNumeral_toDigits (n : Nat) : IsNumeral (Nat.toDigits 10 n) := by
  refine ⟨Nat.toDigits_ne_nil, fun c hc => ?_⟩
  obtain ⟨m, hm, rfl⟩ := exists_digitChar_of_mem_toDigits (by decide) hc
  rw [decimalDigit?_digitChar hm]
  rfl

theorem IsNumeral.isDigit {ds : List Char} (h : IsNumeral ds) : ∀ c ∈ ds, isDigit c = true := by
  intro c hc
  rw [Text.isDigit, h.2 c hc]
  rfl

theorem IsNumeral.exists_value {ds : List Char} (h : IsNumeral ds) :
    ∃ n, decimalValue? ds = some n := by
  have all : ∀ ds : List Char, (∀ c ∈ ds, (decimalDigit? c).isSome = true) →
      ∃ n, decimalValue? ds = some n := by
    intro ds
    induction ds using List.reverseRecOn with
    | nil => exact fun _ => ⟨0, rfl⟩
    | append_singleton ds d ih =>
      intro hds
      obtain ⟨n, hn⟩ := ih fun c hc => hds c (by simp [hc])
      obtain ⟨k, hk⟩ := Option.isSome_iff_exists.1 (hds d (by simp))
      exact ⟨10 * n + k, by rw [decimalValue?_concat, hn, hk]; rfl⟩
  exact all ds h.2

theorem decimalValue?_replicate_zero (k : Nat) :
    decimalValue? (List.replicate k '0') = some 0 := by
  induction k with
  | zero => rfl
  | succ k ih =>
    rw [List.replicate_succ', decimalValue?_concat, ih]
    rfl

/-- A number other than zero has a digit left when zeros at the end are dropped. -/
theorem isNumeral_dropTrailingZeros {n : Nat} (hn : n ≠ 0) :
    IsNumeral ((Nat.toDigits 10 n).reverse.dropWhile (· = '0')).reverse := by
  constructor
  · intro h
    rw [List.reverse_eq_nil_iff, List.dropWhile_eq_nil_iff] at h
    have zeros : Nat.toDigits 10 n = List.replicate (Nat.toDigits 10 n).length '0' :=
      List.eq_replicate_of_mem fun c hc => by simpa using h c (by simpa using hc)
    have value := decimalValue?_toDigits n
    rw [zeros, decimalValue?_replicate_zero, Option.some.injEq] at value
    exact hn value.symm
  · intro c hc
    refine (isNumeral_toDigits n).2 c ?_
    rw [List.mem_reverse] at hc
    exact List.mem_reverse.1 ((List.dropWhile_suffix _).subset hc)

/-! ## Base sixteen -/

theorem hexDigit?_digitChar {n : Nat} (h : n < 16) : hexDigit? n.digitChar = some n := by
  have all : ∀ m < 16, hexDigit? m.digitChar = some m := by decide
  exact all n h

theorem isHexDigit_digitChar {n : Nat} (h : n < 16) : isHexDigit n.digitChar = true := by
  rw [isHexDigit, hexDigit?_digitChar h]
  rfl

theorem hexValue_concat (ds : List Char) (d : Char) :
    hexValue (ds ++ [d]) = 16 * hexValue ds + (hexDigit? d).getD 0 := by
  simp [hexValue]

theorem hexValue_toDigits (n : Nat) : hexValue (Nat.toDigits 16 n) = n := by
  induction n using Nat.strongRecOn with
  | ind n ih =>
    by_cases h : n < 16
    · rw [Nat.toDigits_of_lt_base h, ← List.nil_append [_], hexValue_concat,
        hexDigit?_digitChar h]
      simp [hexValue]
    · rw [Nat.toDigits_of_base_le (by decide) (by omega), hexValue_concat, ih (n / 16) (by omega),
        hexDigit?_digitChar (Nat.mod_lt _ (by decide)), Option.getD_some]
      omega

theorem hexValue_replicate_zero_append (k : Nat) (ds : List Char) :
    hexValue (List.replicate k '0' ++ ds) = hexValue ds := by
  have zeros : ∀ j, List.foldl (fun n c => 16 * n + (hexDigit? c).getD 0) 0
      (List.replicate j '0') = 0 := by
    intro j
    induction j with
    | zero => rfl
    | succ j ih => rw [List.replicate_succ, List.foldl_cons]; exact ih
  rw [hexValue, List.foldl_append, zeros, hexValue]

/-- Padding does not change the value of the digits. -/
theorem hexValue_hexPadded (width n : Nat) : hexValue (hexPadded width n) = n := by
  rw [hexPadded, hexValue_replicate_zero_append, hexValue_toDigits]

/-- What a padded number consists of. -/
theorem exists_digitChar_of_mem_hexPadded {width n : Nat} {c : Char} (h : c ∈ hexPadded width n) :
    ∃ m < 16, c = m.digitChar := by
  rw [hexPadded, List.mem_append] at h
  rcases h with h | h
  · exact ⟨0, by decide, List.eq_of_mem_replicate h⟩
  · obtain ⟨m, hm, hc⟩ := exists_digitChar_of_mem_toDigits (by decide) h
    exact ⟨m, hm, hc⟩

theorem isHexDigit_of_mem_hexPadded {width n : Nat} {c : Char} (h : c ∈ hexPadded width n) :
    isHexDigit c = true := by
  obtain ⟨m, hm, rfl⟩ := exists_digitChar_of_mem_hexPadded h
  exact isHexDigit_digitChar hm

theorem hexPadded_ne_nil (width n : Nat) : hexPadded width n ≠ [] := by
  simp [hexPadded, Nat.toDigits_ne_nil]

theorem hexDigit?_toUpper_digitChar {n : Nat} (h : n < 16) :
    hexDigit? n.digitChar.toUpper = some n := by
  have all : ∀ m < 16, hexDigit? m.digitChar.toUpper = some m := by decide
  exact all n h

/-- The case of the digits does not matter. -/
theorem hexValue_upperHexPadded (width n : Nat) : hexValue (upperHexPadded width n) = n := by
  have hcase : hexValue (upperHexPadded width n) = hexValue (hexPadded width n) := by
    rw [upperHexPadded, hexValue, hexValue, List.foldl_map]
    refine List.foldl_ext _ _ _ fun k c hc => ?_
    obtain ⟨m, hm, rfl⟩ := exists_digitChar_of_mem_hexPadded hc
    rw [hexDigit?_toUpper_digitChar hm, hexDigit?_digitChar hm]
  rw [hcase, hexValue_hexPadded]

theorem isHexDigit_of_mem_upperHexPadded {width n : Nat} {c : Char}
    (h : c ∈ upperHexPadded width n) : isHexDigit c = true := by
  obtain ⟨d, hd, rfl⟩ := List.mem_map.1 h
  obtain ⟨m, hm, rfl⟩ := exists_digitChar_of_mem_hexPadded hd
  rw [isHexDigit, hexDigit?_toUpper_digitChar hm]
  rfl

theorem upperHexPadded_ne_nil (width n : Nat) : upperHexPadded width n ≠ [] := by
  simp [upperHexPadded, hexPadded_ne_nil]

end AchievementLang.Text

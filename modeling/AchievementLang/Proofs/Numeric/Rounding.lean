import AchievementLang.Numeric.Shortest
import Mathlib.Algebra.Order.Floor.Semiring
import Mathlib.Data.Rat.Floor
import Mathlib.Tactic.FieldSimp
import Mathlib.Tactic.Linarith
import Mathlib.Tactic.NormNum
import Mathlib.Tactic.Positivity
import Mathlib.Tactic.Ring

/-!
# Rounding to double precision

The logarithm that `floorLog` computes from numbers of digits is exact (`scale_floorLog_le`,
`lt_scale_floorLog_succ`), and so a number that is not negative rounds to the numbers that
`roundEven` says. The main statement is `Binary64.nearest_eq_overflow_iff`: what is too large for
double precision is exactly what is at least `overflowBound`, half a unit in the last place above
the largest number of the format.
-/

namespace AchievementLang.Numeric

/-! ## Powers -/

theorem scale_eq_zpow {b : Nat} (hb : b ≠ 0) (e : Int) : scale b e = (b : ℚ) ^ e := by
  have hb' : (b : ℚ) ≠ 0 := by exact_mod_cast hb
  unfold scale
  split
  next h =>
    obtain ⟨n, rfl⟩ := Int.eq_ofNat_of_zero_le h
    simp
  next h =>
    obtain ⟨n, hn⟩ := Int.eq_ofNat_of_zero_le (a := -e) (by omega)
    obtain rfl : e = -(n : Int) := by omega
    rw [Rat.mkRat_eq_div]
    simp

theorem scale_pos {b : Nat} (hb : b ≠ 0) (e : Int) : 0 < scale b e := by
  have hb' : (0 : ℚ) < b := by exact_mod_cast Nat.pos_of_ne_zero hb
  rw [scale_eq_zpow hb]
  exact zpow_pos hb' e

theorem scale_add {b : Nat} (hb : b ≠ 0) (e f : Int) :
    scale b (e + f) = scale b e * scale b f := by
  simp only [scale_eq_zpow hb]
  exact zpow_add₀ (by exact_mod_cast hb) e f

theorem scale_le_scale {b : Nat} (hb : 1 < b) {e f : Int} (h : e ≤ f) :
    scale b e ≤ scale b f := by
  simp only [scale_eq_zpow (by omega : b ≠ 0)]
  exact zpow_le_zpow_right₀ (by exact_mod_cast hb.le) h

theorem scale_natCast {b : Nat} (n : Nat) : scale b n = (b : ℚ) ^ n := by
  simp [scale]

/-! ## Logarithms -/

theorem lt_pow_length_toDigits {b : Nat} (hb : 1 < b) (n : Nat) :
    n < b ^ (Nat.toDigits b n).length :=
  (Nat.length_toDigits_le_iff hb Nat.length_toDigits_pos).1 le_rfl

theorem pow_length_toDigits_le {b n : Nat} (hb : 1 < b) (hn : 0 < n) :
    b ^ ((Nat.toDigits b n).length - 1) ≤ n := by
  by_contra h
  rcases Nat.eq_zero_or_pos ((Nat.toDigits b n).length - 1) with h0 | h0
  · rw [h0, pow_zero] at h
    omega
  · have := (Nat.length_toDigits_le_iff hb h0).2 (not_le.1 h)
    omega

section FloorLog

variable {b : Nat} {x : ℚ}

/-- The numbers of digits of numerator and denominator leave two candidates for the logarithm. -/
theorem scale_lengths (hb : 1 < b) (hx : 0 < x) :
    scale b (((Nat.toDigits b x.num.natAbs).length : Int) - (Nat.toDigits b x.den).length - 1) ≤ x ∧
      x < scale b (((Nat.toDigits b x.num.natAbs).length : Int) -
        (Nat.toDigits b x.den).length + 1) := by
  have hb0 : b ≠ 0 := by omega
  have hbq : (0 : ℚ) < b := by exact_mod_cast (by omega : 0 < b)
  have hnum : 0 < x.num.natAbs := Int.natAbs_pos.2 (Rat.num_pos.2 hx).ne'
  have hden : 0 < x.den := x.den_pos
  set p := (Nat.toDigits b x.num.natAbs).length with hp
  set q := (Nat.toDigits b x.den).length with hq
  have hp0 : 0 < p := Nat.length_toDigits_pos
  have hq0 : 0 < q := Nat.length_toDigits_pos
  have hx' : x = (x.num.natAbs : ℚ) / x.den := by
    have habs : ((x.num.natAbs : Int) : ℚ) = (x.num : ℚ) := by
      rw [Int.natAbs_of_nonneg (Rat.num_pos.2 hx).le]
    calc x = (x.num : ℚ) / x.den := (Rat.num_div_den x).symm
      _ = (x.num.natAbs : ℚ) / x.den := by rw [← habs, Int.cast_natCast]
  have hdenq : (0 : ℚ) < x.den := by exact_mod_cast hden
  have numLe : (b : ℚ) ^ (p - 1) ≤ x.num.natAbs := by
    exact_mod_cast pow_length_toDigits_le hb hnum
  have numLt : (x.num.natAbs : ℚ) < (b : ℚ) ^ p := by
    exact_mod_cast lt_pow_length_toDigits hb x.num.natAbs
  have denLe : (b : ℚ) ^ (q - 1) ≤ x.den := by
    exact_mod_cast pow_length_toDigits_le hb hden
  have denLt : (x.den : ℚ) < (b : ℚ) ^ q := by
    exact_mod_cast lt_pow_length_toDigits hb x.den
  constructor
  · have e : ((p : Int) - q - 1) = ((p - 1 : Nat) : Int) + -(q : Int) := by omega
    rw [e, scale_eq_zpow hb0, zpow_add₀ hbq.ne', zpow_neg, zpow_natCast, zpow_natCast,
      ← div_eq_mul_inv, hx', div_le_div_iff₀ (by positivity) hdenq]
    exact mul_le_mul numLe denLt.le hdenq.le (by positivity)
  · have e : ((p : Int) - q + 1) = (p : Int) + -((q - 1 : Nat) : Int) := by omega
    rw [e, scale_eq_zpow hb0, zpow_add₀ hbq.ne', zpow_neg, zpow_natCast, zpow_natCast,
      ← div_eq_mul_inv, hx', div_lt_div_iff₀ hdenq (by positivity)]
    exact mul_lt_mul numLt denLe (by positivity) (by positivity)

theorem scale_floorLog_le (hb : 1 < b) (hx : 0 < x) : scale b (floorLog b x) ≤ x := by
  have bounds := scale_lengths hb hx
  unfold floorLog
  dsimp only
  split
  next h => exact h
  next h => exact bounds.1

theorem lt_scale_floorLog_succ (hb : 1 < b) (hx : 0 < x) :
    x < scale b (floorLog b x + 1) := by
  have bounds := scale_lengths hb hx
  unfold floorLog
  dsimp only
  split
  next h => exact bounds.2
  next h =>
    rw [Int.sub_add_cancel]
    exact not_le.1 h

theorem le_floorLog_iff (hb : 1 < b) (hx : 0 < x) (e : Int) : e ≤ floorLog b x ↔ scale b e ≤ x := by
  constructor
  · intro h
    exact (scale_le_scale hb h).trans (scale_floorLog_le hb hx)
  · intro h
    by_contra hlt
    have := scale_le_scale hb (by omega : floorLog b x + 1 ≤ e)
    exact absurd (lt_scale_floorLog_succ hb hx) (not_lt.2 (this.trans h))

end FloorLog

/-! ## The nearest integer -/

section RoundEven

variable {x : ℚ}

/-- The two neighbours among which `roundEven` chooses. -/
theorem toNat_floor_bounds (hx : 0 ≤ x) :
    ((x.floor.toNat : Nat) : ℚ) ≤ x ∧ x < (x.floor.toNat : Nat) + 1 := by
  have h0 : 0 ≤ x.floor := Rat.le_floor_iff.2 (by simpa using hx)
  have hcast : ((x.floor.toNat : Nat) : ℚ) = (x.floor : ℚ) := by
    exact_mod_cast congrArg (Int.cast (R := ℚ)) (Int.toNat_of_nonneg h0)
  rw [hcast]
  exact ⟨Rat.floor_le x, by exact_mod_cast Rat.lt_floor_add_one x⟩

/-- Rounding goes up to the even neighbour of an odd number exactly from the middle on. -/
theorem succ_le_roundEven_iff (hx : 0 ≤ x) {n : Nat} (hn : n % 2 = 1) :
    n + 1 ≤ roundEven x ↔ (n : ℚ) + 1 / 2 ≤ x := by
  obtain ⟨hle, hlt⟩ := toNat_floor_bounds hx
  have half : mkRat 1 2 = (1 / 2 : ℚ) := by norm_num [Rat.mkRat_eq_div]
  unfold roundEven
  dsimp only
  rw [half]
  set k := x.floor.toNat
  obtain h | rfl | h := lt_trichotomy n k
  · have hq : (n : ℚ) + 1 ≤ k := by exact_mod_cast h
    split_ifs <;> constructor <;> intro _ <;> linarith
  · split_ifs <;> constructor <;> intro _ <;> linarith
  · have hq : (k : ℚ) + 1 ≤ n := by exact_mod_cast h
    split_ifs <;> constructor <;> intro _ <;> linarith

theorem roundEven_le (hx : 0 ≤ x) {n : Nat} (h : x ≤ n) : roundEven x ≤ n := by
  obtain ⟨hle, hlt⟩ := toNat_floor_bounds hx
  have half : mkRat 1 2 = (1 / 2 : ℚ) := by norm_num [Rat.mkRat_eq_div]
  unfold roundEven
  dsimp only
  rw [half]
  set k := x.floor.toNat
  have hk : k ≤ n := by exact_mod_cast hle.trans h
  obtain rfl | hk := hk.eq_or_lt
  · split_ifs <;> linarith
  · split_ifs <;> omega

theorem le_roundEven (hx : 0 ≤ x) {n : Nat} (h : (n : ℚ) ≤ x) : n ≤ roundEven x := by
  obtain ⟨hle, hlt⟩ := toNat_floor_bounds hx
  unfold roundEven
  dsimp only
  set k := x.floor.toNat
  have hk : n < k + 1 := by exact_mod_cast h.trans_lt hlt
  split_ifs <;> omega

end RoundEven

/-! ## Overflow -/

/-- Numbers from here on are too large for the format. -/
def overflowBound : ℚ := 2 ^ 1024 - 2 ^ 970

namespace Binary64

variable {x : ℚ}

/-- The exponent of the number that `x` is rounded to. -/
def roundedExponent (x : ℚ) : Int := max (floorLog 2 x - (significandBits - 1)) leastExponent

/-- The significand of the number that `x` is rounded to. -/
def roundedSignificand (x : ℚ) : Nat := roundEven (x / scale 2 (roundedExponent x))

theorem nearest_eq_overflow (x : ℚ) :
    nearest x = .overflow ↔
      scale 2 topExponent ≤ (roundedSignificand x : ℚ) * scale 2 (roundedExponent x) := by
  have htop := scale_pos (b := 2) (by decide) topExponent
  unfold nearest
  dsimp only
  rw [← roundedExponent, ← roundedSignificand]
  by_cases hs : roundedSignificand x = Nat.pow 2 significandBits
  · -- the significand that is too large is halved, which keeps the value
    have hvalue : ((Nat.pow 2 (significandBits - 1) : Nat) : ℚ) * scale 2 (roundedExponent x + 1) =
        (roundedSignificand x : ℚ) * scale 2 (roundedExponent x) := by
      have h53 : (Nat.pow 2 significandBits : Nat) = 2 * Nat.pow 2 (significandBits - 1) := rfl
      have h1 : scale 2 1 = 2 := by norm_num [scale]
      rw [scale_add (by decide), hs, h53, h1]
      push_cast
      ring
    rw [if_pos hs]
    simp only [value, hvalue]
    rw [if_neg (by decide)]
    split_ifs with h <;> simp [h]
  · rw [if_neg hs]
    simp only [value]
    split_ifs with h0 h
    · simp [h0, htop]
    · simp [h]
    · simp [h]

theorem div_scale_lt (hx : 0 < x) : x / scale 2 (roundedExponent x) < (2 : ℚ) ^ 53 := by
  have hpos := scale_pos (b := 2) (by decide) (roundedExponent x)
  have hexp : floorLog 2 x + 1 ≤ 53 + roundedExponent x := by
    have := le_max_left (floorLog 2 x - (significandBits - 1)) leastExponent
    simp only [roundedExponent, significandBits] at *
    omega
  rw [div_lt_iff₀ hpos]
  calc x < scale 2 (floorLog 2 x + 1) := lt_scale_floorLog_succ (by decide) hx
    _ ≤ scale 2 (53 + roundedExponent x) := scale_le_scale (by decide) hexp
    _ = 2 ^ 53 * scale 2 (roundedExponent x) := by
      rw [scale_add (by decide)]
      exact congrArg (· * _) (scale_natCast 53)

theorem div_scale_nonneg (hx : 0 < x) : 0 ≤ x / scale 2 (roundedExponent x) :=
  div_nonneg hx.le (scale_pos (by decide) _).le

theorem roundedSignificand_le (hx : 0 < x) : roundedSignificand x ≤ 2 ^ 53 :=
  roundEven_le (div_scale_nonneg hx) (by exact_mod_cast (div_scale_lt hx).le)

/-- From the least normal number on the exponent follows the logarithm. -/
theorem roundedExponent_eq (h : -1022 ≤ floorLog 2 x) :
    roundedExponent x = floorLog 2 x - 52 := by
  simp only [roundedExponent, significandBits, leastExponent]
  omega

theorem le_roundedSignificand (hx : 0 < x) (h : -1022 ≤ floorLog 2 x) :
    2 ^ 52 ≤ roundedSignificand x := by
  refine le_roundEven (div_scale_nonneg hx) ?_
  rw [le_div_iff₀ (scale_pos (by decide) _)]
  have h52 : scale 2 52 = 2 ^ 52 := scale_natCast 52
  calc ((2 ^ 52 : Nat) : ℚ) * scale 2 (roundedExponent x)
      = scale 2 (52 + roundedExponent x) := by
        rw [scale_add (by decide), h52]
        norm_num
    _ = scale 2 (floorLog 2 x) := by
        rw [roundedExponent_eq h]
        congr 1
        omega
    _ ≤ x := scale_floorLog_le (by decide) hx

theorem overflowBound_eq : overflowBound = (2 ^ 53 - 1 / 2) * scale 2 971 := by
  have h971 : scale 2 971 = 2 * 2 ^ 970 := by
    rw [show scale 2 971 = 2 ^ 971 from scale_natCast 971, pow_succ']
  have h1024 : (2 : ℚ) ^ 1024 = 2 ^ 54 * 2 ^ 970 := by rw [← pow_add]
  rw [overflowBound, h971, h1024]
  generalize (2 : ℚ) ^ 970 = unit
  ring

/-- In the last binade a number rounds to the next power of two from the bound on. -/
theorem le_roundedSignificand_iff (hx : 0 < x) (he : roundedExponent x = 971) :
    2 ^ 53 ≤ roundedSignificand x ↔ overflowBound ≤ x := by
  have hup := succ_le_roundEven_iff (div_scale_nonneg hx) (n := 2 ^ 53 - 1) (by decide)
  have hhalf : (((2 ^ 53 - 1 : Nat) : ℚ) + 1 / 2) = 2 ^ 53 - 1 / 2 := by norm_num
  rw [hhalf, le_div_iff₀ (scale_pos (by decide) _), he, ← overflowBound_eq, ← he] at hup
  exact hup

theorem scale_topExponent : scale 2 topExponent = 2 ^ 53 * scale 2 971 := by
  rw [show topExponent = 53 + 971 from rfl, scale_add (by decide)]
  exact congrArg (· * _) (scale_natCast 53)

/-- **What is too large for double precision**: the numbers from `overflowBound` on. -/
theorem nearest_eq_overflow_iff (hx : 0 < x) : nearest x = .overflow ↔ overflowBound ≤ x := by
  have hs := roundedSignificand_le hx
  have h971 : 0 < scale 2 971 := scale_pos (by decide) 971
  have h1024 : scale 2 1024 = 2 ^ 53 * scale 2 971 := scale_topExponent
  have h1023 : scale 2 1023 = 2 ^ 52 * scale 2 971 := by
    rw [show (1023 : Int) = 52 + 971 from rfl, scale_add (by decide)]
    exact congrArg (· * _) (scale_natCast 52)
  rw [nearest_eq_overflow, scale_topExponent]
  constructor
  · intro h
    have hexp : 971 ≤ roundedExponent x := by
      by_contra hlt
      have hpos : 0 < scale 2 (roundedExponent x) := scale_pos (by decide) _
      have hstep : scale 2 (1 + roundedExponent x) ≤ scale 2 971 :=
        scale_le_scale (by decide) (by omega)
      rw [scale_add (by decide), show scale 2 1 = 2 by norm_num [scale]] at hstep
      have hsq : (roundedSignificand x : ℚ) ≤ 2 ^ 53 := by exact_mod_cast hs
      have := mul_le_mul_of_nonneg_right hsq hpos.le
      linarith
    have hlog : roundedExponent x = floorLog 2 x - 52 := by
      refine roundedExponent_eq ?_
      simp only [roundedExponent, significandBits, leastExponent] at hexp
      omega
    obtain he | he := hexp.eq_or_lt
    · rw [← le_roundedSignificand_iff hx he.symm]
      rw [← he] at h
      exact_mod_cast le_of_mul_le_mul_right h h971
    · have hx1024 : scale 2 1024 ≤ x := (le_floorLog_iff (by decide) hx 1024).1 (by omega)
      rw [overflowBound_eq]
      linarith
  · intro h
    have hlog : 1023 ≤ floorLog 2 x := by
      refine (le_floorLog_iff (by decide) hx 1023).2 (le_trans ?_ h)
      rw [overflowBound_eq, h1023]
      linarith
    have hexp := roundedExponent_eq (x := x) (by omega)
    obtain he | he := (show 971 ≤ roundedExponent x by omega).eq_or_lt
    · have h53 : ((2 ^ 53 : Nat) : ℚ) ≤ roundedSignificand x :=
        Nat.cast_le.2 ((le_roundedSignificand_iff hx he.symm).2 h)
      rw [← he]
      refine mul_le_mul_of_nonneg_right ?_ h971.le
      exact_mod_cast h53
    · have h52 : ((2 ^ 52 : Nat) : ℚ) ≤ roundedSignificand x := by
        exact_mod_cast le_roundedSignificand hx (by omega)
      have hscale : scale 2 (1 + 971) ≤ scale 2 (roundedExponent x) :=
        scale_le_scale (by decide) (by omega)
      rw [scale_add (by decide), show scale 2 1 = 2 by norm_num [scale]] at hscale
      calc (2 : ℚ) ^ 53 * scale 2 971 = ((2 ^ 52 : Nat) : ℚ) * (2 * scale 2 971) := by
            push_cast
            ring
        _ ≤ roundedSignificand x * scale 2 (roundedExponent x) :=
            mul_le_mul h52 hscale (mul_nonneg two_pos.le h971.le) (Nat.cast_nonneg _)

end Binary64

end AchievementLang.Numeric

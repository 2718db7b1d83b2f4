import AchievementLang.Proofs.Numeric.Rounding
import AchievementLang.Proofs.Text.Numeral

/-!
# The text of a number of double precision

The shortest decimal of a positive number has at least one digit (`isNumeral_shortest`), also where
the search for one runs out of grids. So what the layout writes starts with a numeral in either
notation: `render_positional` says that nothing but a numeral with a point stands in the positional
one, and `render_scientific` that the mark of an exponent follows it in the other.
-/

namespace AchievementLang.Numeric

open Text

/-! ## The digits -/

theorem isNumeral_ofCoefficient {n : Nat} (hn : n ≠ 0) (unit : Int) :
    IsNumeral (Decimal.ofCoefficient n unit).digits :=
  isNumeral_dropTrailingZeros hn

theorem onGrid?_ne_zero {b : Binary64} {unit : Int} {n : Nat} (hb : 0 ≤ b.value)
    (h : onGrid? b unit = some n) : n ≠ 0 := by
  have hexact : 0 ≤ b.value / scale 10 unit := div_nonneg hb (scale_pos (by decide) unit).le
  unfold onGrid? at h
  dsimp only at h
  split at h
  next hbelow _ =>
    obtain ⟨hpos, -⟩ := Bool.and_eq_true_iff.1 hbelow
    have := le_roundEven hexact (toNat_floor_bounds hexact).1
    simp only [decide_eq_true_eq, Option.some.injEq] at hpos h
    omega
  next hbelow _ =>
    obtain ⟨hpos, -⟩ := Bool.and_eq_true_iff.1 hbelow
    simp only [decide_eq_true_eq, Option.some.injEq] at hpos h
    omega
  · simp only [Option.some.injEq] at h
    omega
  · cases h

/-- Whatever grids are tried, there is a digit: the last grid is not coarser than the number. -/
theorem isNumeral_shortestFrom {b : Binary64} (hb : 0 < b.value) {n : Nat} (hn : 1 ≤ n)
    (left : Nat) : IsNumeral (shortestFrom b (floorLog 10 b.value) n left).digits := by
  induction left generalizing n with
  | zero =>
    refine isNumeral_ofCoefficient ?_ _
    have hscale : 0 < scale 10 (floorLog 10 b.value - n + 1) := scale_pos (by decide) _
    have hle : scale 10 (floorLog 10 b.value - n + 1) ≤ b.value :=
      (scale_le_scale (by decide) (by omega)).trans (scale_floorLog_le (by decide) hb)
    have hone : (1 : ℚ) ≤ b.value / scale 10 (floorLog 10 b.value - n + 1) :=
      (one_le_div hscale).2 hle
    have hfloor : 1 ≤ (b.value / scale 10 (floorLog 10 b.value - n + 1)).floor :=
      Rat.le_floor_iff.2 (by exact_mod_cast hone)
    omega
  | succ left ih =>
    unfold shortestFrom
    split
    next n hgrid => exact isNumeral_ofCoefficient (onGrid?_ne_zero hb.le hgrid) _
    next => exact ih (by omega)

theorem isNumeral_shortest {b : Binary64} (hb : 0 < b.value) : IsNumeral (shortest b).digits :=
  isNumeral_shortestFrom hb le_rfl 17

theorem Binary64.value_pos_of_nearest {x : ℚ} {b : Binary64} (h : nearest x = .finite b) :
    0 < b.value := by
  unfold nearest at h
  extract_lets exponent significand rounded at h
  split_ifs at h with hzero htop
  injection h with h
  rw [← h]
  exact mul_pos (by exact_mod_cast Nat.pos_of_ne_zero hzero) (scale_pos (by decide) _)

/-! ## The layout -/

/-- A numeral, or two with a point between them. -/
def IsPointed (cs : List Char) : Prop :=
  IsNumeral cs ∨ ∃ whole fraction, IsNumeral whole ∧ IsNumeral fraction ∧
    cs = whole ++ '.' :: fraction

theorem isNumeral_replicate_zero {k : Nat} (hk : k ≠ 0) : IsNumeral (List.replicate k '0') := by
  refine ⟨by simpa using hk, fun c hc => ?_⟩
  rw [List.eq_of_mem_replicate hc]
  rfl

theorem isNumeral_append_left {ds es : List Char} (hds : ∀ c ∈ ds, (decimalDigit? c).isSome = true)
    (hes : IsNumeral es) : IsNumeral (ds ++ es) := by
  refine ⟨by simp [hes.1], fun c hc => ?_⟩
  rcases List.mem_append.1 hc with h | h
  · exact hds c h
  · exact hes.2 c h

theorem isPointed_pointed {ds : List Char} (h : IsNumeral ds) : IsPointed (pointed ds) := by
  obtain ⟨hne, hds⟩ := h
  match ds with
  | [] => exact absurd rfl hne
  | [d] => exact .inl ⟨hne, hds⟩
  | d :: e :: rest =>
    exact .inr ⟨[d], e :: rest, ⟨by simp, fun c hc => hds c (by simp_all)⟩,
      ⟨by simp, fun c hc => hds c (List.mem_cons_of_mem d hc)⟩, rfl⟩

/-- The decimal is written without an exponent. -/
def Decimal.IsPositional (d : Decimal) : Prop := -4 ≤ d.exponent ∧ d.exponent < 16

instance : DecidablePred Decimal.IsPositional := fun _ => inferInstanceAs (Decidable (_ ∧ _))

/-- In positional notation there are digits on both sides of the point. -/
theorem render_positional {d : Decimal} (hd : IsNumeral d.digits) (hpos : d.IsPositional) :
    IsPointed (plainLayout.render d).toList := by
  unfold Layout.render
  rw [if_pos (show plainLayout.leastPositional ≤ d.exponent ∧
    d.exponent < plainLayout.topPositional from hpos)]
  split
  · -- below one
    refine .inr ⟨['0'], List.replicate (-d.exponent - 1).toNat '0' ++ d.digits,
      isNumeral_replicate_zero (k := 1) (by decide), ?_, by simp⟩
    refine isNumeral_append_left (fun c hc => ?_) hd
    rw [List.eq_of_mem_replicate hc]
    rfl
  · dsimp only
    have hwhole : IsNumeral (d.digits.take (d.exponent.toNat + 1)) := by
      refine ⟨by simp [hd.1], fun c hc => hd.2 c (List.mem_of_mem_take hc)⟩
    split
    · -- an integer
      refine .inr ⟨_, ['0'], ?_, isNumeral_replicate_zero (k := 1) (by decide), by
        rw [String.toList_append, String.toList_ofList]; rfl⟩
      refine ⟨by simp [hd.1], fun c hc => ?_⟩
      rcases List.mem_append.1 hc with h | h
      · exact hwhole.2 c h
      · rw [List.eq_of_mem_replicate h]
        rfl
    next hfraction =>
      refine .inr ⟨_, d.digits.drop (d.exponent.toNat + 1), hwhole, ⟨?_, fun c hc => ?_⟩, by
        rw [String.toList_ofList]⟩
      · rwa [List.isEmpty_iff] at hfraction
      · exact hd.2 c (List.mem_of_mem_drop hc)

theorem IsPointed.colon_not_mem {cs : List Char} (h : IsPointed cs) : ':' ∉ cs := by
  have numeral : ∀ ds, IsNumeral ds → ':' ∉ ds := fun ds hds hc =>
    absurd (hds.2 ':' hc) (by decide)
  obtain h | ⟨whole, fraction, hwhole, hfraction, rfl⟩ := h
  · exact numeral cs h
  · simp [numeral whole hwhole, numeral fraction hfraction]

/-- In scientific notation the mark of the exponent follows the digits. -/
theorem render_scientific {d : Decimal} (hd : IsNumeral d.digits) (hpos : ¬ d.IsPositional) :
    ∃ mantissa tail, IsPointed mantissa ∧ ':' ∉ tail ∧
      (plainLayout.render d).toList = mantissa ++ 'e' :: tail := by
  unfold Layout.render
  rw [if_neg (show ¬ (plainLayout.leastPositional ≤ d.exponent ∧
    d.exponent < plainLayout.topPositional) from hpos)]
  have hmark : plainLayout.mark.toList = ['e'] := rfl
  have hsign : ':' ∉ (if d.exponent < 0 then "-" else "+").toList := by
    split <;> decide
  have hsize : ':' ∉ Nat.toDigits 10 d.exponent.natAbs := fun hc =>
    absurd (isDigit_of_mem_toDigits hc) (by decide)
  simp only [String.toList_append, String.toList_ofList, hmark, List.append_assoc,
    List.singleton_append]
  exact ⟨_, _, isPointed_pointed hd, by simp [hsign, hsize], rfl⟩

end AchievementLang.Numeric

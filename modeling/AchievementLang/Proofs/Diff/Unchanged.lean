import AchievementLang.Diff.Achievement
import Mathlib.Data.List.Forall2

/-!
# Comparing with the same

Lists with the same items are kept as a whole (`Diff.align_of_forall₂`): the run that starts both is
as long as they are, and no later one is longer. So two versions of an achievement that are the same
differ nowhere (`Diff.isModified_self`).
-/

namespace AchievementLang.Diff

/-! ## Alignment -/

section Align

variable {α : Type} [BEq α]

theorem sharedLength_le (xs ys : List α) : sharedLength xs ys ≤ xs.length := by
  fun_induction sharedLength xs ys with
  | case1 x xs y ys h ih => simpa using ih
  | case2 => exact Nat.zero_le _
  | case3 => exact Nat.zero_le _

/-- A run that is as long as the left list is not replaced. -/
theorem longestAt_eq_best {xs : List α} {best : Run} (h : xs.length ≤ best.length) (i j : Nat)
    (ys : List α) : longestAt i xs best j ys = best := by
  induction ys generalizing j with
  | nil => rfl
  | cons y ys ih =>
    have hshared := sharedLength_le xs (y :: ys)
    have hlonger : best.longer ⟨i, j, sharedLength xs (y :: ys)⟩ = best :=
      if_neg (by dsimp only; omega)
    rw [longestAt, hlonger, ih]

theorem longestFrom_eq_best {xs : List α} {best : Run} (h : xs.length ≤ best.length)
    (ys : List α) (i : Nat) : longestFrom ys best i xs = best := by
  induction xs generalizing i with
  | nil => rfl
  | cons x xs ih =>
    rw [longestFrom, longestAt_eq_best h]
    exact ih (by simp at h; omega) (i + 1)

theorem sharedLength_of_forall₂ {xs ys : List α}
    (h : List.Forall₂ (fun x y => (x == y) = true) xs ys) : sharedLength xs ys = xs.length := by
  induction h with
  | nil => rfl
  | cons hxy _ ih => rw [sharedLength, if_pos hxy, ih, List.length_cons]

/-- The longest run that two lists share is the whole of both if they have the same items. -/
theorem longestRun_of_forall₂ {xs ys : List α}
    (h : List.Forall₂ (fun x y => (x == y) = true) xs ys) :
    longestRun xs ys = ⟨0, 0, xs.length⟩ := by
  have hshared := sharedLength_of_forall₂ h
  cases h with
  | nil => rfl
  | @cons x y xs ys =>
    have hfirst : Run.longer ⟨0, 0, 0⟩ ⟨0, 0, sharedLength (x :: xs) (y :: ys)⟩ =
        ⟨0, 0, (x :: xs).length⟩ := by
      rw [hshared]
      exact if_pos (by simp)
    rw [longestRun, longestFrom, longestAt, hfirst, longestAt_eq_best (Nat.le_refl _),
      longestFrom_eq_best (by simp)]

/-- **Lists with the same items are kept as a whole.** -/
theorem align_of_forall₂ {xs ys : List α}
    (h : List.Forall₂ (fun x y => (x == y) = true) xs ys) :
    align xs ys = List.zipWith .kept xs ys := by
  have hnil : align ([] : List α) [] = [] := by
    rw [align, dif_pos (show (longestRun ([] : List α) []).length = 0 from rfl)]
    rfl
  rw [align]
  split
  next hempty =>
    rw [longestRun_of_forall₂ h] at hempty
    obtain rfl := List.length_eq_zero_iff.1 hempty
    obtain rfl := List.forall₂_nil_left_iff.1 h
    rfl
  next =>
    have htake : ys.take xs.length = ys := List.take_of_length_le (Nat.le_of_eq h.length_eq.symm)
    have hdrop : ys.drop xs.length = [] := List.drop_of_length_le (Nat.le_of_eq h.length_eq.symm)
    simp [longestRun_of_forall₂ h, hnil, htake, hdrop]

/-- **A list lined up with itself is kept.** -/
theorem align_self [ReflBEq α] (xs : List α) : align xs xs = xs.map fun x => .kept x x := by
  rw [align_of_forall₂ (List.forall₂_same.2 fun x _ => BEq.rfl), List.zipWith_self]

end Align

/-! ## Achievements -/

instance : ReflBEq Row := ⟨fun {a} => beq_self_eq_true a.text⟩

theorem pairRows_self (g : Wire.Group) : pairRows g g = g.map fun r => ⟨some r, some r⟩ := by
  rw [pairRows, align_self]
  simp [RowPair.ofPlace, Row.of]

theorem isModified_pairRows_self (label : String) (g : Wire.Group) :
    GroupDiff.isModified ⟨label, pairRows g g⟩ = false := by
  simp [GroupDiff.isModified, pairRows_self, RowPair.isModified]

theorem isModified_alternates_self (n : Nat) (gs : List Wire.Group) :
    (alternates n gs gs).any GroupDiff.isModified = false := by
  induction gs generalizing n with
  | nil => simp [alternates]
  | cons g gs ih => rw [alternates, List.any_cons, isModified_pairRows_self, ih, Bool.false_or]

/-- **An achievement does not differ from itself.** -/
theorem isModified_self (a : Achievement) : (achievements a a).isModified = false := by
  simp [AchievementDiff.isModified, achievements, triggerGroups, isModified_pairRows_self,
    isModified_alternates_self]

end AchievementLang.Diff

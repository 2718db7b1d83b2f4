/-!
# Alignment of two lists

Lines two lists up on the runs that they share: the longest shared run is kept, then what comes
before it and what comes after it are lined up in the same way. Of several longest runs the one
that starts first on the left counts, then the one that starts first on the right. A run is
found inside the lists (`longestRun_within`), so what is left on either side of it is shorter.
-/

namespace AchievementLang.Diff

variable {α : Type}

/-- A run shared by two lists: where it starts in each, and its length. -/
structure Run where
  left : Nat
  right : Nat
  length : Nat

/-- The number of items that two lists share at their start. -/
def sharedLength [BEq α] : List α → List α → Nat
  | x :: xs, y :: ys => if x == y then sharedLength xs ys + 1 else 0
  | _, _ => 0

/-- The longer of two runs, the first one if they are equally long. -/
def Run.longer (best r : Run) : Run := if best.length < r.length then r else best

/-- The longest run that starts with the left list, from the `j`-th item on the right on. -/
def longestAt [BEq α] (i : Nat) (xs : List α) (best : Run) : Nat → List α → Run
  | _, [] => best
  | j, y :: ys => longestAt i xs (best.longer ⟨i, j, sharedLength xs (y :: ys)⟩) (j + 1) ys

/-- The longest run from the `i`-th item on the left on. -/
def longestFrom [BEq α] (ys : List α) (best : Run) : Nat → List α → Run
  | _, [] => best
  | i, x :: xs => longestFrom ys (longestAt i (x :: xs) best 0 ys) (i + 1) xs

/-- The longest run that two lists share. -/
def longestRun [BEq α] (xs ys : List α) : Run := longestFrom ys ⟨0, 0, 0⟩ 0 xs

/-! ## The run lies inside the lists -/

/-- The run is empty, or starts before the bound. -/
def Run.Within (bound : Nat) (r : Run) : Prop := r.length = 0 ∨ r.left < bound

theorem Run.Within.mono {m n : Nat} {r : Run} (h : r.Within m) (hmn : m ≤ n) : r.Within n := by
  rcases h with h | h
  · exact .inl h
  · exact .inr (by omega)

theorem longestAt_within [BEq α] (i bound : Nat) (xs : List α) (best : Run) (j : Nat)
    (ys : List α) (hb : best.Within bound) (hi : i < bound) :
    (longestAt i xs best j ys).Within bound := by
  induction ys generalizing best j with
  | nil => exact hb
  | cons y ys ih =>
    apply ih
    unfold Run.longer
    split
    · exact .inr hi
    · exact hb

theorem longestFrom_within [BEq α] (ys : List α) (best : Run) (i : Nat) (xs : List α)
    (hb : best.Within i) : (longestFrom ys best i xs).Within (i + xs.length) := by
  induction xs generalizing best i with
  | nil => simpa [longestFrom] using hb
  | cons x xs ih =>
    have h := ih (longestAt i (x :: xs) best 0 ys) (i + 1)
      (longestAt_within i (i + 1) _ _ _ _ (hb.mono (by omega)) (by omega))
    exact h.mono (by simp; omega)

theorem longestRun_within [BEq α] (xs ys : List α) :
    (longestRun xs ys).Within xs.length := by
  simpa [longestRun] using longestFrom_within ys ⟨0, 0, 0⟩ 0 xs (.inl rfl)

/-! ## Alignment -/

/-- A place in an alignment. -/
inductive Place (α : Type)
  /-- An item of both lists. -/
  | kept (left right : α)
  | onlyLeft (x : α)
  | onlyRight (y : α)
  /-- Different items at the same place between two runs. -/
  | changed (left right : α)
  deriving Repr

namespace Place

/-- The item on the left. -/
def left? : Place α → Option α
  | kept x _ | onlyLeft x | changed x _ => some x
  | onlyRight _ => none

/-- The item on the right. -/
def right? : Place α → Option α
  | kept _ y | onlyRight y | changed _ y => some y
  | onlyLeft _ => none

/-- The place is that of an item of both lists. -/
def isKept : Place α → Bool
  | kept .. => true
  | _ => false

end Place

/-- Lists without a shared item, side by side. -/
def sideBySide : List α → List α → List (Place α)
  | x :: xs, y :: ys => .changed x y :: sideBySide xs ys
  | xs, [] => xs.map .onlyLeft
  | [], ys => ys.map .onlyRight

/-- The alignment of two lists. -/
def align [BEq α] (xs ys : List α) : List (Place α) :=
  if h : (longestRun xs ys).length = 0 then sideBySide xs ys
  else
    have : (longestRun xs ys).left < xs.length := (longestRun_within xs ys).resolve_left h
    let r := longestRun xs ys
    align (xs.take r.left) (ys.take r.right) ++
      List.zipWith .kept ((xs.drop r.left).take r.length) ((ys.drop r.right).take r.length) ++
      align (xs.drop (r.left + r.length)) (ys.drop (r.right + r.length))
termination_by xs.length
decreasing_by
  · simp only [List.length_take]; omega
  · simp only [List.length_drop]; omega

/-- The number of items kept in an alignment. -/
def keptCount [BEq α] (xs ys : List α) : Nat := ((align xs ys).filter Place.isKept).length

end AchievementLang.Diff

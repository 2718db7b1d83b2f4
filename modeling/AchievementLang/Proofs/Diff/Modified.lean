import AchievementLang.Proofs.Diff.Unchanged
import AchievementLang.Proofs.Wire.Trigger
import Mathlib.Data.List.DropRight

/-!
# What an unmodified comparison says

An alignment has the items of both lists, in order, and keeps only items that are the same
(`Diff.aligns_align`). So two groups differ nowhere exactly if their rows are written the same
(`Diff.isModified_pairRows`). Missing alternates count as empty, so two triggers differ nowhere
exactly if they are written the same once the empty alternates at their ends are left out
(`Diff.isModified_iff`).
-/

namespace AchievementLang

namespace Diff

/-! ## Runs that are shared -/

section Align

variable {α : Type} [BEq α] {xs ys : List α}

theorem forall₂_take {n : Nat} (h : n ≤ sharedLength xs ys) :
    List.Forall₂ (fun x y => (x == y) = true) (xs.take n) (ys.take n) := by
  induction n generalizing xs ys with
  | zero => exact .nil
  | succ n ih =>
    match xs, ys, h with
    | x :: xs, y :: ys, h =>
      rw [sharedLength] at h
      split at h
      next hxy => exact .cons hxy (ih (Nat.le_of_succ_le_succ h))
      next => cases h

/-- The lists share the run. -/
def Run.IsShared (xs ys : List α) (r : Run) : Prop :=
  r.length ≤ sharedLength (xs.drop r.left) (ys.drop r.right)

theorem isShared_longestAt {i j : Nat} {best : Run} (h : best.IsShared xs ys) {zs : List α}
    (hzs : ys.drop j = zs) : (longestAt i (xs.drop i) best j zs).IsShared xs ys := by
  induction zs generalizing best j with
  | nil => exact h
  | cons z zs ih =>
    rw [longestAt]
    refine ih ?_ (by rw [← List.tail_drop, hzs, List.tail_cons])
    unfold Run.longer
    split
    · exact (congrArg (sharedLength (xs.drop i)) hzs).ge
    · exact h

theorem isShared_longestFrom {i : Nat} {best : Run} (h : best.IsShared xs ys) {zs : List α}
    (hzs : xs.drop i = zs) : (longestFrom ys best i zs).IsShared xs ys := by
  induction zs generalizing best i with
  | nil => exact h
  | cons z zs ih =>
    rw [longestFrom, ← hzs]
    exact ih (isShared_longestAt h rfl) (by rw [← List.tail_drop, hzs, List.tail_cons])

/-- **The longest shared run is shared.** -/
theorem isShared_longestRun (xs ys : List α) : (longestRun xs ys).IsShared xs ys :=
  isShared_longestFrom (Nat.zero_le _) rfl

/-! ## Alignments -/

/-- The places have the items of both lists, in order, and those that are kept are the same. -/
structure Aligns (places : List (Place α)) (xs ys : List α) : Prop where
  left : places.filterMap Place.left? = xs
  right : places.filterMap Place.right? = ys
  kept : ∀ x y, .kept x y ∈ places → (x == y) = true

namespace Aligns

variable {ps ps' : List (Place α)} {xs' ys' : List α}

theorem append (h : Aligns ps xs ys) (h' : Aligns ps' xs' ys') :
    Aligns (ps ++ ps') (xs ++ xs') (ys ++ ys') where
  left := by rw [List.filterMap_append, h.left, h'.left]
  right := by rw [List.filterMap_append, h.right, h'.right]
  kept x y hxy := (List.mem_append.1 hxy).elim (h.kept x y) (h'.kept x y)

theorem zipWith_kept (h : List.Forall₂ (fun x y => (x == y) = true) xs ys) :
    Aligns (List.zipWith .kept xs ys) xs ys := by
  induction h with
  | nil => exact ⟨rfl, rfl, fun _ _ h => nomatch h⟩
  | @cons x y xs ys hxy _ ih =>
    refine ⟨congrArg (x :: ·) ih.left, congrArg (y :: ·) ih.right, fun x' y' hmem => ?_⟩
    obtain heq | hmem := List.mem_cons.1 hmem
    · cases heq
      exact hxy
    · exact ih.kept x' y' hmem

theorem sideBySide (xs ys : List α) : Aligns (Diff.sideBySide xs ys) xs ys := by
  fun_induction Diff.sideBySide xs ys with
  | case1 x xs y ys ih =>
    refine ⟨congrArg (x :: ·) ih.left, congrArg (y :: ·) ih.right, fun x' y' hmem => ?_⟩
    obtain heq | hmem := List.mem_cons.1 hmem
    · cases heq
    · exact ih.kept x' y' hmem
  | case2 xs =>
    exact ⟨by rw [List.filterMap_map]; exact List.filterMap_some, by simp [Place.right?], by simp⟩
  | case3 ys =>
    exact ⟨by simp [Place.left?], by rw [List.filterMap_map]; exact List.filterMap_some, by simp⟩

end Aligns

/-- **An alignment has the items of both lists**, and keeps only items that are the same. -/
theorem aligns_align (xs ys : List α) : Aligns (align xs ys) xs ys := by
  fun_induction align xs ys with
  | case1 xs ys h => exact Aligns.sideBySide xs ys
  | case2 xs ys h hwithin r before after =>
    have hrun := Aligns.zipWith_kept (forall₂_take (isShared_longestRun xs ys))
    have hall := (before.append hrun).append after
    rwa [← List.take_add, List.take_append_drop, ← List.take_add, List.take_append_drop] at hall

end Align

/-! ## Groups -/

@[simp] theorem row_of_beq (r s : Wire.Requirement) :
    ((Row.of r == Row.of s) = true) = (r.wire = s.wire) :=
  propext (beq_iff_eq (a := r.wire) (b := s.wire))

theorem forall₂_row_of {g h : Wire.Group} :
    List.Forall₂ (fun x y : Row => (x == y) = true) (g.map Row.of) (h.map Row.of) ↔
      g.map Wire.Requirement.wire = h.map Wire.Requirement.wire := by
  rw [← List.forall₂_eq_eq_eq]
  simp only [List.forall₂_map_left_iff, List.forall₂_map_right_iff, row_of_beq]

/-- The rows that are kept together are written the same. -/
theorem wire_eq_of_kept {g h : Wire.Group} {x y : Row}
    (hp : .kept x y ∈ align (g.map Row.of) (h.map Row.of)) :
    x.requirement.wire = y.requirement.wire := by
  have haligns := aligns_align (g.map Row.of) (h.map Row.of)
  have hx : x ∈ g.map Row.of := by
    rw [← haligns.left]
    exact List.mem_filterMap.2 ⟨_, hp, rfl⟩
  have hy : y ∈ h.map Row.of := by
    rw [← haligns.right]
    exact List.mem_filterMap.2 ⟨_, hp, rfl⟩
  obtain ⟨r, -, rfl⟩ := List.mem_map.1 hx
  obtain ⟨s, -, rfl⟩ := List.mem_map.1 hy
  have hsame := haligns.kept _ _ hp
  rw [row_of_beq] at hsame
  exact hsame

/-- The rows of an unmodified place are written the same. -/
theorem wire_eq_of_place {g h : Wire.Group} {p : Place Row}
    (hp : p ∈ align (g.map Row.of) (h.map Row.of))
    (hmodified : (RowPair.ofPlace p).isModified = false) :
    p.left?.map (·.requirement.wire) = p.right?.map (·.requirement.wire) := by
  have hpair := of_decide_eq_false hmodified
  cases p with
  | kept x y => exact congrArg some (wire_eq_of_kept hp)
  | changed x y =>
    have hsame : x.requirement = y.requirement := by
      simpa [RowPair.ofPlace, Place.left?, Place.right?] using hpair
    simp [Place.left?, Place.right?, hsame]
  | _ => simp [RowPair.ofPlace, Place.left?, Place.right?] at hpair

/-- **Groups differ nowhere exactly if their rows are written the same.** -/
theorem isModified_pairRows (label : String) (g h : Wire.Group) :
    GroupDiff.isModified ⟨label, pairRows g h⟩ = false ↔
      g.map Wire.Requirement.wire = h.map Wire.Requirement.wire := by
  have haligns := aligns_align (g.map Row.of) (h.map Row.of)
  simp only [GroupDiff.isModified, pairRows, List.any_map, List.any_eq_false]
  constructor
  · intro hall
    have hleft := congrArg (List.map (·.requirement.wire)) haligns.left
    have hright := congrArg (List.map (·.requirement.wire)) haligns.right
    rw [List.map_filterMap, List.map_map] at hleft hright
    refine hleft.symm.trans (Eq.trans ?_ hright)
    refine List.filterMap_congr fun p hp => wire_eq_of_place hp ?_
    simpa using hall p hp
  · intro hwire p hp
    rw [align_of_forall₂ (forall₂_row_of.2 hwire)] at hp
    obtain ⟨x, y, -, rfl⟩ : ∃ x y, (x, y) ∈ (g.map Row.of).zip (h.map Row.of) ∧ p = .kept x y := by
      rw [← List.map_uncurry_zip_eq_zipWith] at hp
      obtain ⟨q, hq, rfl⟩ := List.mem_map.1 hp
      exact ⟨q.1, q.2, hq, rfl⟩
    simp [RowPair.ofPlace, RowPair.isModified]

end Diff

/-! ## Triggers -/

namespace Wire

theorem Trigger.WellFormed.eq_of_wire {t t' : Trigger} (h : t.WellFormed) (h' : t'.WellFormed)
    (hwire : t.wire = t'.wire) : t = t' := by
  have hread := readTrigger_wire t h
  rw [hwire, readTrigger_wire t' h'] at hread
  exact (Except.ok.inj hread).symm

theorem Group.WellFormed.eq_of_wire {g h : Group} (hg : g.WellFormed) (hh : h.WellFormed)
    (hwire : g.map Requirement.wire = h.map Requirement.wire) : g = h := by
  have htrigger : (⟨g, []⟩ : Trigger).wire = (⟨h, []⟩ : Trigger).wire := by
    rw [Trigger.wire, Trigger.wire, Group.wire, Group.wire, hwire]
  exact congrArg Trigger.core
    (Trigger.WellFormed.eq_of_wire ⟨hg, by simp⟩ ⟨hh, by simp⟩ htrigger)

/-- The trigger without the empty alternates at its end. -/
def Trigger.trimmed (t : Trigger) : Trigger :=
  { t with alternates := t.alternates.rdropWhile List.isEmpty }

theorem Trigger.WellFormed.trimmed {t : Trigger} (h : t.WellFormed) : t.trimmed.WellFormed :=
  ⟨h.1, fun g hg => h.2 g ((List.rdropWhile_prefix _ _).subset hg)⟩

theorem wellFormed_of_readTrigger {s : String} {t : Trigger} (h : readTrigger s = .ok t) :
    t.WellFormed :=
  (Reader.spelled_of_trigger (readTrigger_eq_ok_iff.1 h)).wellFormed

end Wire

namespace Diff

theorem isModified_pairRows_iff (label : String) {g h : Wire.Group} (hg : g.WellFormed)
    (hh : h.WellFormed) : GroupDiff.isModified ⟨label, pairRows g h⟩ = false ↔ g = h := by
  rw [isModified_pairRows]
  exact ⟨hg.eq_of_wire hh, congrArg _⟩

theorem rdropWhile_cons {α : Type} (p : α → Bool) (x : α) (xs : List α) :
    (x :: xs).rdropWhile p =
      if p x = true ∧ xs.rdropWhile p = [] then [] else x :: xs.rdropWhile p := by
  rw [List.rdropWhile, List.rdropWhile, List.reverse_cons, List.dropWhile_append]
  by_cases h : xs.reverse.dropWhile p = [] <;> by_cases hx : p x = true <;> simp [h, hx]

theorem rdropWhile_isEmpty_cons {α : Type} {x y : List α} {xs ys : List (List α)} :
    (x :: xs).rdropWhile List.isEmpty = (y :: ys).rdropWhile List.isEmpty ↔
      x = y ∧ xs.rdropWhile List.isEmpty = ys.rdropWhile List.isEmpty := by
  rw [rdropWhile_cons, rdropWhile_cons]
  generalize xs.rdropWhile List.isEmpty = xs'
  generalize ys.rdropWhile List.isEmpty = ys'
  cases x <;> cases y <;> cases xs' <;> cases ys' <;> simp

/-- Alternates differ nowhere exactly if they are the same but for empty ones at the end. -/
theorem isModified_alternates (n : Nat) {gs hs : List Wire.Group} (hgs : ∀ g ∈ gs, g.WellFormed)
    (hhs : ∀ h ∈ hs, h.WellFormed) :
    (alternates n gs hs).any GroupDiff.isModified = false ↔
      gs.rdropWhile List.isEmpty = hs.rdropWhile List.isEmpty := by
  have hempty : Wire.Group.WellFormed [] := by simp [Wire.Group.WellFormed]
  fun_induction alternates n gs hs with
  | case1 n => simp
  | case2 n g gs ih =>
    obtain ⟨hg, hgs⟩ := List.forall_mem_cons.1 hgs
    rw [List.any_cons, Bool.or_eq_false_iff, isModified_pairRows_iff _ hg hempty]
    refine (and_congr_right' (ih hgs hhs)).trans ?_
    simp [List.rdropWhile_eq_nil_iff]
  | case3 n h hs ih =>
    obtain ⟨hh, hhs⟩ := List.forall_mem_cons.1 hhs
    rw [List.any_cons, Bool.or_eq_false_iff, isModified_pairRows_iff _ hempty hh]
    refine (and_congr_right' (ih hgs hhs)).trans ?_
    simp [List.rdropWhile_eq_nil_iff, eq_comm (a := [])]
  | case4 n g gs h hs ih =>
    obtain ⟨hg, hgs⟩ := List.forall_mem_cons.1 hgs
    obtain ⟨hh, hhs⟩ := List.forall_mem_cons.1 hhs
    rw [List.any_cons, Bool.or_eq_false_iff, isModified_pairRows_iff _ hg hh]
    exact (and_congr_right' (ih hgs hhs)).trans rdropWhile_isEmpty_cons.symm

/-- **Two versions of an achievement differ nowhere exactly if they say the same.** Their titles,
descriptions and points are the same, and so are their triggers on the wire once the empty
alternates at the ends are left out, since a missing alternate counts as empty. -/
theorem isModified_iff (left right : Achievement) (s s' : String)
    (hleft : Wire.readTrigger s = .ok left.trigger)
    (hright : Wire.readTrigger s' = .ok right.trigger) :
    (achievements left right).isModified = false ↔
      left.title = right.title ∧ left.description = right.description ∧
        left.points = right.points ∧ left.trigger.trimmed.wire = right.trigger.trimmed.wire := by
  have hl := Wire.wellFormed_of_readTrigger hleft
  have hr := Wire.wellFormed_of_readTrigger hright
  have htrigger : left.trigger.trimmed.wire = right.trigger.trimmed.wire ↔
      left.trigger.core = right.trigger.core ∧
        left.trigger.alternates.rdropWhile List.isEmpty =
          right.trigger.alternates.rdropWhile List.isEmpty := by
    rw [← Wire.Trigger.mk.injEq]
    exact ⟨hl.trimmed.eq_of_wire hr.trimmed, congrArg _⟩
  rw [htrigger, ← isModified_pairRows_iff "Core" hl.1 hr.1, ← isModified_alternates 1 hl.2 hr.2]
  simp [AchievementDiff.isModified, achievements, triggerGroups, and_assoc]

/-- Where only one of two triggers ends in an empty alternate they differ on the wire, but no group
does. -/
theorem not_isModified_emptyAlternate :
    let row : Wire.Requirement :=
      { left := .literal ⟨1, by decide⟩, operator := some .eq, right := .literal ⟨1, by decide⟩ }
    let left : Achievement := { title := "Title", points := 5, trigger := ⟨[row], [[]]⟩ }
    let right : Achievement := { title := "Title", points := 5, trigger := ⟨[row], []⟩ }
    Wire.readTrigger "1=1S" = .ok left.trigger ∧ Wire.readTrigger "1=1" = .ok right.trigger ∧
      ¬((achievements left right).isModified = false ↔
        left.title = right.title ∧ left.description = right.description ∧
          left.points = right.points ∧ left.trigger.wire = right.trigger.wire) := by
  intro row left right
  have hunmodified : (achievements left right).isModified = false := by
    simp [AchievementDiff.isModified, achievements, triggerGroups, alternates, left, right,
      isModified_pairRows_self]
  refine ⟨by decide +kernel, by decide +kernel, fun h => ?_⟩
  have hwire : left.trigger.wire = right.trigger.wire := (h.1 hunmodified).2.2.2
  revert hwire
  decide +kernel

/-- Alternates of one row each, of which one trigger has an empty one after them. -/
theorem isModified_iff_emptyAlternate :
    let row (n : Wire.Word) : Wire.Requirement :=
      { left := .memory .byte n, operator := some .gt, right := .literal n, hits := 3 }
    let one : Wire.Word := ⟨1, by decide⟩
    let two : Wire.Word := ⟨2, by decide⟩
    let left : Achievement := { trigger := ⟨[], [[row one], [row two], [], []]⟩ }
    let right : Achievement := { trigger := ⟨[], [[row one], [row two], []]⟩ }
    Wire.readTrigger "S0xH1>1.3.S0xh2>2(3)SS" = .ok left.trigger ∧
      Wire.readTrigger "S0xh01>1(3)S0xH2>2.3.S" = .ok right.trigger ∧
      (achievements left right).isModified = false := by
  intro row one two left right
  have hleft : Wire.readTrigger "S0xH1>1.3.S0xh2>2(3)SS" = .ok left.trigger := by decide +kernel
  have hright : Wire.readTrigger "S0xh01>1(3)S0xH2>2.3.S" = .ok right.trigger := by decide +kernel
  exact ⟨hleft, hright, (isModified_iff left right _ _ hleft hright).2 ⟨rfl, rfl, rfl, rfl⟩⟩

end Diff

end AchievementLang

import AchievementLang.Proofs.Diff.Modified

/-!
# The pairs of two groups

Two groups are compared by lining their rows up and showing what stands side by side. A row that is
kept is shown as it is on the left, which is how it is written on the right as well. So the pairs
hold all rows of the left group and, as they are written, all rows of the right one, in order, with
no pair for nothing (`Diff.pairRows_lossless`).
-/

namespace AchievementLang.Diff

open Wire (Group Requirement)

variable {g h : Group} {p : Place Row}

theorem RowPair.left_ofPlace (p : Place Row) :
    (RowPair.ofPlace p).left = p.left?.map (·.requirement) := by
  cases p <;> rfl

/-- The right side of a pair is written as the row on the right, also where the one on the left
stands for both. -/
theorem RowPair.map_wire_right_ofPlace
    (hp : p ∈ align (g.map Row.of) (h.map Row.of)) :
    (RowPair.ofPlace p).right.map Requirement.wire = p.right?.map (·.requirement.wire) := by
  cases p with
  | kept x y => exact congrArg some (wire_eq_of_kept hp)
  | onlyLeft | onlyRight | changed => rfl

theorem RowPair.isSome_ofPlace (p : Place Row) :
    (RowPair.ofPlace p).left.isSome = true ∨ (RowPair.ofPlace p).right.isSome = true := by
  cases p <;> simp [RowPair.ofPlace, Place.left?, Place.right?]

theorem filterMap_left_pairRows (g h : Group) : (pairRows g h).filterMap RowPair.left = g := by
  have hleft := (aligns_align (g.map Row.of) (h.map Row.of)).left
  calc (pairRows g h).filterMap RowPair.left
      = ((align (g.map Row.of) (h.map Row.of)).filterMap Place.left?).map (·.requirement) := by
        simp only [pairRows, List.filterMap_map, List.map_filterMap, Function.comp_def,
          RowPair.left_ofPlace]
    _ = (g.map Row.of).map (·.requirement) := by rw [hleft]
    _ = g := by
        rw [List.map_map]
        exact List.map_id g

theorem map_wire_filterMap_right_pairRows (g h : Group) :
    ((pairRows g h).filterMap RowPair.right).map Requirement.wire = h.map Requirement.wire := by
  have hright := (aligns_align (g.map Row.of) (h.map Row.of)).right
  calc ((pairRows g h).filterMap RowPair.right).map Requirement.wire
      = (align (g.map Row.of) (h.map Row.of)).filterMap
          fun p => (RowPair.ofPlace p).right.map Requirement.wire := by
        simp only [pairRows, List.filterMap_map, List.map_filterMap, Function.comp_def]
    _ = (align (g.map Row.of) (h.map Row.of)).filterMap
          fun p => p.right?.map (·.requirement.wire) :=
        List.filterMap_congr fun _ hp => RowPair.map_wire_right_ofPlace hp
    _ = ((align (g.map Row.of) (h.map Row.of)).filterMap Place.right?).map
          (·.requirement.wire) := by rw [List.map_filterMap]
    _ = (h.map Row.of).map (·.requirement.wire) := by rw [hright]
    _ = h.map Requirement.wire := by simp [Row.of, Function.comp_def]

/-- **Pairing two groups loses and invents nothing.** The left sides are the rows of the left group
in order, the right sides are written as those of the right group in order, each pair has a side,
and none differs exactly if the rows of both groups are written the same. -/
theorem pairRows_lossless (label : String) (g h : Group) :
    (pairRows g h).filterMap RowPair.left = g ∧
      ((pairRows g h).filterMap RowPair.right).map Requirement.wire = h.map Requirement.wire ∧
      (∀ p ∈ pairRows g h, p.left.isSome = true ∨ p.right.isSome = true) ∧
      (GroupDiff.isModified ⟨label, pairRows g h⟩ = false ↔
        g.map Requirement.wire = h.map Requirement.wire) := by
  refine ⟨filterMap_left_pairRows g h, map_wire_filterMap_right_pairRows g h, fun p hp => ?_,
    isModified_pairRows label g h⟩
  obtain ⟨place, -, rfl⟩ := List.mem_map.1 hp
  exact RowPair.isSome_ofPlace place

end AchievementLang.Diff

import AchievementLang.Wire.Requirement
import Mathlib.Data.List.Basic

/-!
# The notes that a row shows

A row shows what is noted for the addresses that it refers to (`Requirement.references`): lines for
all of them, or only what is noted for the left value if nothing else is in question. The left value
is an address of the row unless something else than memory is compared with a literal. So the text
depends on the notes for the row's own addresses alone, except for such rows, which show the note
for an address that they do not read (`Requirement.notesText_eq_iff`).
-/

namespace AchievementLang.Wire

/-- The same is noted for the addresses that the fields refer to. -/
def Notes.AgreeOn (fields : List Field) (notes notes' : Notes) : Prop :=
  ∀ f ∈ fields, notes.at? f.value = notes'.at? f.value

namespace Requirement

variable {r : Requirement} {notes notes' : Notes}

/-- The operands that refer to memory, now or in the frame before. -/
def references (r : Requirement) : List Field := [r.left, r.right].filter Field.isMemory

theorem mem_references {f : Field} :
    f ∈ r.references ↔ (f = r.left ∨ f = r.right) ∧ f.isMemory = true := by
  simp [references]

theorem noteLine?_eq {f : Field} (h : f.isMemory = true → notes.at? f.value = notes'.at? f.value) :
    noteLine? notes f = noteLine? notes' f := by
  unfold noteLine?
  split
  next hf => rw [h hf]
  · rfl

/-- The lines of a row come from the notes for its references. -/
theorem notesText_eq_of_lines (hlines : r.rightIsKnown = false)
    (h : Notes.AgreeOn r.references notes notes') : r.notesText notes = r.notesText notes' := by
  have hline : ∀ f ∈ [r.left, r.right], noteLine? notes f = noteLine? notes' f := by
    intro f hf
    refine noteLine?_eq fun hmemory => h f (mem_references.2 ⟨?_, hmemory⟩)
    simpa using hf
  simp only [notesText, hlines, Bool.false_eq_true, if_false, List.filterMap_congr hline]

/-- Where only the note for the left value is shown, that value is an address of the row, unless the
row compares something else than memory with a literal. -/
theorem exists_reference_of_rightIsKnown (hknown : r.rightIsKnown = true)
    (h : r.right.kind = .literal → r.left.isMemory = true) :
    ∃ f ∈ r.references, f.value = r.left.value := by
  simp only [rightIsKnown, Bool.or_eq_true, Bool.and_eq_true, beq_iff_eq] at hknown
  obtain hliteral | ⟨hprevious, hsame⟩ := hknown
  · exact ⟨r.left, mem_references.2 ⟨.inl rfl, h hliteral⟩, rfl⟩
  · exact ⟨r.right, mem_references.2 ⟨.inr rfl, by simp [Field.isMemory, hprevious]⟩, hsame⟩

/-- **The notes that a row shows come from the addresses that it reads**, exactly if it does not
compare something else than memory with a literal. -/
theorem notesText_eq_iff (r : Requirement) :
    (∀ notes notes', Notes.AgreeOn r.references notes notes' →
      r.notesText notes = r.notesText notes') ↔
      (r.right.kind = .literal → r.left.isMemory = true) := by
  constructor
  · intro h hliteral
    by_contra hleft
    -- neither side is a reference, so all notes agree
    have hright : r.right.isMemory = false := by simp [Field.isMemory, hliteral]
    have hnone : r.references = [] := by simp [references, hleft, hright]
    have hsame := h [(r.left.value, "note")] [] (by simp [Notes.AgreeOn, hnone])
    have hknown : r.rightIsKnown = true := by simp [rightIsKnown, hliteral]
    simp [notesText, hknown, Notes.at?] at hsame
  · intro h notes notes' hagree
    cases hknown : r.rightIsKnown with
    | false => exact notesText_eq_of_lines hknown hagree
    | true =>
      obtain ⟨f, hf, hvalue⟩ := exists_reference_of_rightIsKnown hknown h
      have hnote := hagree f hf
      rw [hvalue] at hnote
      simp only [notesText, hknown, if_true, hnote]

/-- Two literals are compared, and the note for an address shows. -/
theorem notesText_ne_literals :
    let row : Requirement :=
      { left := .literal ⟨1, by decide⟩, operator := some .eq, right := .literal ⟨1, by decide⟩ }
    Notes.AgreeOn row.references [(1, "Lives")] [] ∧
      row.notesText [(1, "Lives")] ≠ row.notesText [] := by
  intro row
  exact ⟨by simp [Notes.AgreeOn, references, row, Field.isMemory, Field.literal], by decide⟩

end Requirement

end AchievementLang.Wire

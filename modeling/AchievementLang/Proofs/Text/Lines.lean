import AchievementLang.Text.Blank

/-!
# Joined texts and line ends

The characters of texts that are joined by a separator (`toList_intercalate_cons`), and texts whose
lines already end alike (`unifyLineEnds_of_not_mem`).
-/

namespace AchievementLang.Text

/-- The parts of a joined text: the first one, and the others each led by the separator. -/
theorem toList_intercalate_cons (sep s : String) (ss : List String) :
    (sep.intercalate (s :: ss)).toList =
      s.toList ++ ss.flatMap fun t => sep.toList ++ t.toList := by
  induction ss generalizing s with
  | nil => simp
  | cons t ss ih => simp [String.intercalate_cons_cons, ih]

/-- A text without carriage returns keeps its line ends. -/
theorem unifyLineEnds_of_not_mem {cs : List Char} (h : '\r' ∉ cs) : unifyLineEnds cs = cs := by
  induction cs with
  | nil => rfl
  | cons c cs ih =>
    obtain ⟨hc, hcs⟩ : '\r' ≠ c ∧ '\r' ∉ cs := by simpa using h
    rw [unifyLineEnds, ih hcs]
    · rintro rest rfl
      exact absurd rfl hc
    · rintro rfl
      exact absurd rfl hc

end AchievementLang.Text

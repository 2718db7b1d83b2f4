import AchievementLang.Wire.Requirement

/-!
# Triggers

A trigger is a core group of requirements and any number of alternate groups. On the wire the
rows of a group are joined by `_`, and each alternate is led by `S`.
-/

namespace AchievementLang.Wire

/-- Rows that are read together, in order. -/
abbrev Group := List Requirement

/-- The rows on the wire. -/
def Group.wire (g : Group) : String := "_".intercalate (g.map Requirement.wire)

/-- When an achievement is earned: the core and, if there are alternates, one of them. -/
structure Trigger where
  core : Group := []
  alternates : List Group := []
  deriving DecidableEq, Repr

/-- The trigger on the wire. -/
def Trigger.wire (t : Trigger) : String :=
  t.core.wire ++ String.join (t.alternates.map fun g => "S" ++ g.wire)

end AchievementLang.Wire

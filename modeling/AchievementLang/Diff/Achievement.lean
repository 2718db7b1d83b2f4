import AchievementLang.Achievement
import AchievementLang.Diff.Alignment

/-!
# Comparing achievements

What one version of an achievement changes against another. The core is compared with the core
and each alternate group with the one at its place; a group that one side lacks counts as
empty. Rows are the same if they are written the same.
-/

namespace AchievementLang.Diff

/-- A row of a group, together with how it is written. -/
structure Row where
  text : String
  requirement : Wire.Requirement

instance : BEq Row := ⟨fun a b => a.text == b.text⟩

/-- The row of a requirement. -/
def Row.of (r : Wire.Requirement) : Row := ⟨r.wire, r⟩

/-- Two rows side by side, one of which may be missing. -/
structure RowPair where
  left : Option Wire.Requirement
  right : Option Wire.Requirement
  deriving DecidableEq, Repr

/-- The two rows differ. -/
def RowPair.isModified (p : RowPair) : Bool := p.left ≠ p.right

/-- The rows at a place. A row that is kept stands for both. -/
def RowPair.ofPlace : Place Row → RowPair
  | .kept x _ => ⟨some x.requirement, some x.requirement⟩
  | p => ⟨p.left?.map (·.requirement), p.right?.map (·.requirement)⟩

/-- The rows of two groups, lined up. -/
def pairRows (left right : Wire.Group) : List RowPair :=
  (align (left.map Row.of) (right.map Row.of)).map RowPair.ofPlace

/-- The comparison of two groups. -/
structure GroupDiff where
  label : String
  rows : List RowPair

/-- Some row differs. -/
def GroupDiff.isModified (g : GroupDiff) : Bool := g.rows.any RowPair.isModified

/-- The comparison of the alternate groups, counted from `n`. -/
def alternates (n : Nat) : List Wire.Group → List Wire.Group → List GroupDiff
  | [], [] => []
  | g :: gs, [] => ⟨s!"Alt {n}", pairRows g []⟩ :: alternates (n + 1) gs []
  | [], g :: gs => ⟨s!"Alt {n}", pairRows [] g⟩ :: alternates (n + 1) [] gs
  | g :: gs, h :: hs => ⟨s!"Alt {n}", pairRows g h⟩ :: alternates (n + 1) gs hs

/-- The comparison of two triggers. -/
def triggerGroups (left right : Wire.Trigger) : List GroupDiff :=
  ⟨"Core", pairRows left.core right.core⟩ :: alternates 1 left.alternates right.alternates

/-- The comparison of two achievements. -/
structure AchievementDiff where
  title : Bool
  description : Bool
  points : Bool
  groups : List GroupDiff

/-- What differs between two achievements. -/
def achievements (left right : Achievement) : AchievementDiff where
  title := left.title ≠ right.title
  description := left.description ≠ right.description
  points := left.points ≠ right.points
  groups := triggerGroups left.trigger right.trigger

/-- Something differs. -/
def AchievementDiff.isModified (d : AchievementDiff) : Bool :=
  d.title || d.description || d.points || d.groups.any GroupDiff.isModified

/-- The names of the properties that differ. -/
def AchievementDiff.changed (d : AchievementDiff) : List String :=
  [("title", d.title), ("description", d.description), ("points", d.points)].filterMap
    fun (name, differs) => if differs then some name else none

end AchievementLang.Diff

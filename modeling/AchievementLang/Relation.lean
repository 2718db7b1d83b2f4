/-!
# Relations between numbers

The six comparisons of scripts and triggers. `opposite` is the relation that holds exactly
when the other does not, `mirrored` the one that holds of the exchanged operands
(`holds_opposite`, `holds_mirrored`).
-/

namespace AchievementLang

/-- A comparison of two numbers. -/
inductive Relation
  | eq | ne | lt | le | gt | ge
  deriving DecidableEq, Repr

namespace Relation

/-- The relation that holds exactly when this one does not. -/
def opposite : Relation → Relation
  | eq => ne
  | ne => eq
  | lt => ge
  | le => gt
  | gt => le
  | ge => lt

/-- The relation to use when the operands change sides. -/
def mirrored : Relation → Relation
  | eq => eq
  | ne => ne
  | lt => gt
  | le => ge
  | gt => lt
  | ge => le

/-- The relation between two integers. -/
def holds : Relation → Int → Int → Bool
  | eq, a, b => decide (a = b)
  | ne, a, b => decide (a ≠ b)
  | lt, a, b => decide (a < b)
  | le, a, b => decide (a ≤ b)
  | gt, a, b => decide (a > b)
  | ge, a, b => decide (a ≥ b)

theorem holds_opposite (r : Relation) (a b : Int) : r.opposite.holds a b = !r.holds a b := by
  cases r <;> simp only [opposite, holds, ← decide_not, decide_eq_decide] <;> omega

theorem holds_mirrored (r : Relation) (a b : Int) : r.mirrored.holds b a = r.holds a b := by
  cases r <;> simp only [mirrored, holds, decide_eq_decide] <;> omega

@[simp] theorem opposite_opposite (r : Relation) : r.opposite.opposite = r := by
  cases r <;> rfl

/-- The spelling in scripts. -/
def symbol : Relation → String
  | eq => "=="
  | ne => "!="
  | lt => "<"
  | le => "<="
  | gt => ">"
  | ge => ">="

/-- The relation spelled so in scripts. -/
def ofSymbol? : String → Option Relation
  | "==" => some eq
  | "!=" => some ne
  | "<" => some lt
  | "<=" => some le
  | ">" => some gt
  | ">=" => some ge
  | _ => none

end Relation

end AchievementLang

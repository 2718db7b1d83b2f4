import AchievementLang.Function
import AchievementLang.Proofs.Condition.Truth
import AchievementLang.Wire.Trigger

/-!
# Conditions over memory

What a condition of a script and a trigger of the runtime mean when memory holds given numbers.
The runtime reads the rows of a group in order: accumulating rows add their field to a running
total or subtract it, and every other row compares the total and its left field with its right
field, and starts the total again (`Wire.Group.holdsFrom`).

On the side of scripts, sums and differences of memory reads and integers have an amount
(`Expr.amount`), which makes the comparisons of these the atoms of `Expr.truth`. `Expr.IsTrigger`
are the conditions that are built from such comparisons and from the constant conditions.
-/

namespace AchievementLang

/-- What memory holds: the number of each size at each address, in the frame before or now. -/
abbrev Memory := (previous : Bool) → Wire.Size → (address : Int) → Int

/-! ## Triggers -/

namespace Wire

variable (m : Memory)

/-- The number that a field stands for. -/
def Field.number (f : Field) : Int :=
  match f.kind, f.size with
  | .literal, _ => f.value.val
  | .memory, some s => m false s f.value.val
  | .previous, some s => m true s f.value.val
  | _, _ => 0

/-- The comparison of a row holds when the total is added to its left field. -/
def Requirement.compares (total : Int) (r : Requirement) : Bool :=
  match r.operator with
  | some op => op.holds (total + r.left.number m) (r.right.number m)
  | none => false

/-- The rows hold when the total is what earlier rows have accumulated. -/
def Group.holdsFrom (total : Int) : Group → Bool
  | [] => true
  | r :: rest =>
    match r.flag with
    | .addSource => holdsFrom (total + r.left.number m) rest
    | .subSource => holdsFrom (total - r.left.number m) rest
    | _ => r.compares m total && holdsFrom 0 rest

/-- All comparisons of the group hold. -/
def Group.holds (g : Group) : Bool := Group.holdsFrom m 0 g

/-- The core holds, and one of the alternates if there are any. -/
def Trigger.holds (t : Trigger) : Bool :=
  Group.holds m t.core && (t.alternates.isEmpty || t.alternates.any (Group.holds m))

end Wire

/-! ## Conditions of scripts -/

namespace Expr

variable (functions : FunctionTable)

/-- The node is a read of memory: a call of an accessor with an address, or of `prev` with such a
call. -/
inductive IsOperand : Expr → Prop
  | accessor {name : String} {s : Wire.Size} (h : functions.get? name = some (.accessor s))
      (address : Int) (l l' : Option Loc) : IsOperand (.call name [.integer address l] l')
  | prev {name accessor : String} {s : Wire.Size} (h : functions.get? name = some .prev)
      (ha : functions.get? accessor = some (.accessor s)) (address : Int)
      (l l' l'' : Option Loc) : IsOperand (.call name [.call accessor [.integer address l] l'] l'')

/-- The node is a sum or difference of memory reads and integers, of any shape. -/
inductive IsLinear : Expr → Prop
  | integer (n : Int) (l : Option Loc) : IsLinear (.integer n l)
  | operand {e : Expr} (h : IsOperand functions e) : IsLinear e
  | add {a b : Expr} (ha : IsLinear a) (hb : IsLinear b) (l : Option Loc) :
      IsLinear (.math .add a b l)
  | sub {a b : Expr} (ha : IsLinear a) (hb : IsLinear b) (l : Option Loc) :
      IsLinear (.math .sub a b l)

/-- The node is built with the connectives and negation, in any nesting, from comparisons of sums
and from calls of constant conditions. -/
inductive IsTrigger : Expr → Prop
  | compare (r : Relation) {a b : Expr} (ha : IsLinear functions a) (hb : IsLinear functions b)
      (l : Option Loc) : IsTrigger (.compare r a b l)
  | constant {name : String} {holds : Bool} (h : functions.get? name = some (.constant holds))
      (l : Option Loc) : IsTrigger (.call name [] l)
  | not {e : Expr} (h : IsTrigger e) (l : Option Loc) : IsTrigger (.not e l)
  | logic (op : Connective) {es : List Expr} (hne : es ≠ []) (h : ∀ e ∈ es, IsTrigger e)
      (l : Option Loc) : IsTrigger (.logic op es l)

variable (m : Memory)

/-- The number that a read of memory gives; `previous` if it is one of the frame before. -/
def readFrom (previous : Bool) : Expr → Int
  | .call name [.integer address _] _ =>
    match functions.get? name with
    | some (.accessor s) => m previous s address
    | _ => 0
  | .call name [.call f args l] _ =>
    match functions.get? name with
    | some .prev => readFrom true (.call f args l)
    | _ => 0
  | _ => 0

/-- The number that a sum stands for. -/
def amount : Expr → Int
  | .integer n _ => n
  | .math .add a b _ => amount a + amount b
  | .math .sub a b _ => amount a - amount b
  | e => readFrom functions m false e

/-- The condition holds in the memory. -/
def holdsIn (e : Expr) : Bool :=
  e.truth functions { number := amount functions m, condition := fun _ => false }

variable {functions}

theorem amount_accessor {name : String} {s : Wire.Size}
    (h : functions.get? name = some (.accessor s)) (address : Int) (l l' : Option Loc) :
    amount functions m (.call name [.integer address l] l') = m false s address := by
  simp [amount, readFrom, h]

theorem amount_prev {name accessor : String} {s : Wire.Size}
    (h : functions.get? name = some .prev) (ha : functions.get? accessor = some (.accessor s))
    (address : Int) (l l' l'' : Option Loc) :
    amount functions m (.call name [.call accessor [.integer address l] l'] l'') =
      m true s address := by
  simp [amount, readFrom, h, ha]

theorem holdsIn_compare (r : Relation) (a b : Expr) (l : Option Loc) :
    holdsIn functions m (.compare r a b l) =
      r.holds (a.amount functions m) (b.amount functions m) := by
  rw [holdsIn, truth]

theorem holdsIn_not (e : Expr) (l : Option Loc) :
    holdsIn functions m (.not e l) = !holdsIn functions m e := by
  rw [holdsIn, truth, holdsIn]

theorem holdsIn_logic (op : Connective) (es : List Expr) (l : Option Loc) :
    holdsIn functions m (.logic op es l) = op.joins (es.map (holdsIn functions m)) := by
  rw [holdsIn, truth, truths_eq_map]
  rfl

end Expr

end AchievementLang

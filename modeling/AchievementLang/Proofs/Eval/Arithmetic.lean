import AchievementLang.Eval.Reduce
import AchievementLang.Proofs.Eval.Triple
import Mathlib.Data.Rat.Floor
import Mathlib.Tactic.FieldSimp
import Mathlib.Tactic.Linarith
import Mathlib.Tactic.Positivity
import Mathlib.Tactic.Ring

/-!
# Arithmetic on literals

Operations on integer literals, nested in any way (`Expr.IsArithmetic`), stand for a number in exact
arithmetic, unless something in them is divided by zero (`Expr.value?`, `Expr.DividesByZero`). The
quotient is the whole part of the rational one, and the remainder is what the quotient leaves.

Evaluation comes to this number, and fails for a division by zero if and only if there is one
(`Scope.reduce_arithmetic`). The quotient computed from magnitudes and signs is the exact one
(`quotient_eq_wholePart`); from there each operation is the exact one, and the rest is an induction
over the tree (`Engine.run_reduce_arithmetic`).
-/

namespace AchievementLang

/-! ## Quotients and remainders -/

/-- The whole part of a rational number: of the integers between it and zero, the one farthest from
zero. -/
def wholePart (x : ℚ) : ℤ := if 0 ≤ x then ⌊x⌋ else ⌈x⌉

theorem wholePart_neg (x : ℚ) : wholePart (-x) = -wholePart x := by
  unfold wholePart
  obtain hx | rfl | hx := lt_trichotomy x 0
  · rw [if_pos (by linarith), if_neg (by linarith), Int.floor_neg]
  · simp
  · rw [if_neg (by linarith), if_pos (by linarith), Int.ceil_neg]

theorem wholePart_natCast_div (m n : ℕ) : wholePart (m / n) = (m / n : ℕ) := by
  rw [wholePart, if_pos (by positivity), Rat.floor_natCast_div_natCast]
  rfl

/-- What the whole part leaves is less than one, and has the sign of the number. -/
theorem sub_wholePart_bounds (x : ℚ) : |x - wholePart x| < 1 ∧ 0 ≤ x * (x - wholePart x) := by
  unfold wholePart
  split
  next hx =>
    have hle := Int.floor_le x
    have hlt := Int.lt_floor_add_one x
    exact ⟨abs_lt.2 ⟨by linarith, by linarith⟩, mul_nonneg hx (by linarith)⟩
  next hx =>
    have hle := Int.le_ceil x
    have hlt := Int.ceil_lt_add_one x
    exact ⟨abs_lt.2 ⟨by linarith, by linarith⟩,
      mul_nonneg_of_nonpos_of_nonpos (by linarith) (by linarith)⟩

/-- A number is its magnitude, up to the sign. -/
theorem cast_eq_magnitude (a : ℤ) : (a : ℚ) = if a < 0 then -(a.natAbs : ℚ) else a.natAbs := by
  split
  next ha =>
    rw [Nat.cast_natAbs, abs_of_neg ha]
    push_cast
    ring
  next ha => rw [Nat.cast_natAbs, abs_of_nonneg (not_lt.1 ha)]

/-- **The quotient of magnitudes with its sign** is the whole part of the rational quotient. -/
theorem quotient_eq_wholePart (a b : ℤ) : quotient a b = wholePart (a / b) := by
  have hmagnitudes := wholePart_natCast_div a.natAbs b.natAbs
  rw [cast_eq_magnitude a, cast_eq_magnitude b, quotient]
  by_cases ha : a < 0 <;> by_cases hb : b < 0 <;>
    simp only [ha, hb, decide_true, decide_false, bne_self_eq_false, Bool.bne_false, Bool.bne_true,
      Bool.not_false, Bool.false_eq_true, if_true, if_false, neg_div, div_neg, neg_neg,
      wholePart_neg, hmagnitudes]

/-! ## Exact arithmetic -/

/-- What an operation gives in exact arithmetic, if anything. -/
def Operator.result? : Operator → ℤ → ℤ → Option ℤ
  | .add, a, b => some (a + b)
  | .sub, a, b => some (a - b)
  | .mul, a, b => some (a * b)
  | .div, a, b => if b = 0 then none else some (wholePart (a / b))
  | .mod, a, b => if b = 0 then none else some (a - b * wholePart (a / b))

/-- Operations are computed exactly. -/
theorem Operator.computes_result (op : Operator) (a b : ℤ) : op.apply? a b = op.result? a b := by
  unfold Operator.apply? Operator.result?
  cases op <;> simp only [quotient_eq_wholePart]

/-- The operation divides. -/
def Operator.isDivision : Operator → Bool
  | .div | .mod => true
  | _ => false

theorem Operator.result?_eq_none_iff (op : Operator) (a b : ℤ) :
    op.result? a b = none ↔ op.isDivision = true ∧ b = 0 := by
  cases op <;> simp [result?, isDivision]

/-- **Quotient and remainder make up the dividend**; the remainder is smaller than the divisor and
has the sign of the dividend. -/
theorem Operator.result?_div_mod {b : ℤ} (hb : b ≠ 0) (a : ℤ) :
    ∃ q r, Operator.div.result? a b = some q ∧ Operator.mod.result? a b = some r ∧
      a = b * q + r ∧ |r| < |b| ∧ 0 ≤ a * r := by
  obtain ⟨hlt, hsign⟩ := sub_wholePart_bounds (a / b)
  have hb' : (b : ℚ) ≠ 0 := Int.cast_ne_zero.2 hb
  have hrest : ((a - b * wholePart (a / b) : ℤ) : ℚ) = b * (a / b - wholePart (a / b)) := by
    push_cast
    field_simp
  refine ⟨wholePart (a / b), a - b * wholePart (a / b), if_neg hb, if_neg hb, by ring, ?_, ?_⟩
  · have habs : |((a - b * wholePart (a / b) : ℤ) : ℚ)| < |(b : ℚ)| := by
      rw [hrest, abs_mul]
      exact mul_lt_of_lt_one_right (abs_pos.2 hb') hlt
    exact_mod_cast habs
  · have hproduct : (0 : ℚ) ≤ (a : ℚ) * ((a - b * wholePart (a / b) : ℤ) : ℚ) := by
      have hsquare : (a : ℚ) * (b * (a / b - wholePart (a / b))) =
          b ^ 2 * (a / b * (a / b - wholePart (a / b))) := by
        field_simp
      rw [hrest, hsquare]
      exact mul_nonneg (sq_nonneg _) hsign
    exact_mod_cast hproduct

namespace Expr

/-- The node is a literal or an operation on such nodes. -/
inductive IsArithmetic : Expr → Prop
  | integer (n : ℤ) (l : Option Loc) : IsArithmetic (.integer n l)
  | math (op : Operator) {a b : Expr} (ha : IsArithmetic a) (hb : IsArithmetic b)
      (l : Option Loc) : IsArithmetic (.math op a b l)

/-- The number that operations on literals stand for, if any. -/
def value? : Expr → Option ℤ
  | .integer n _ => some n
  | .math op a b _ =>
    match value? a, value? b with
    | some m, some n => op.result? m n
    | _, _ => none
  | _ => none

/-- Somewhere in the node the right side of a division stands for zero. -/
inductive DividesByZero : Expr → Prop
  | here {op : Operator} (hop : op.isDivision = true) (a : Expr) {b : Expr} (hb : b.value? = some 0)
      (l : Option Loc) : DividesByZero (.math op a b l)
  | left {a : Expr} (h : DividesByZero a) (op : Operator) (b : Expr) (l : Option Loc) :
      DividesByZero (.math op a b l)
  | right {b : Expr} (h : DividesByZero b) (op : Operator) (a : Expr) (l : Option Loc) :
      DividesByZero (.math op a b l)

variable {e : Expr}

/-- What divides by zero stands for no number. -/
theorem DividesByZero.value?_eq_none (h : e.DividesByZero) : e.value? = none := by
  induction h with
  | here hop a hb l =>
    rw [value?, hb]
    cases a.value? with
    | none => rfl
    | some m => exact (Operator.result?_eq_none_iff _ m 0).2 ⟨hop, rfl⟩
  | left h op b l ih => rw [value?, ih]
  | right h op a l ih =>
    rw [value?, ih]
    cases a.value? <;> rfl

end Expr

/-! ## Evaluation -/

/-- Numbers are combined by the operation, unless it divides by zero. -/
theorem Expr.combine_integers (op : Operator) (a b : ℤ) (l l' loc : Option Loc) :
    combine op (.integer a l) (.integer b l') loc =
      (op.result? a b).elim (.error ⟨.divisionByZero, loc⟩) fun n => .ok (.integer n loc) := by
  rw [← Operator.computes_result]
  unfold combine
  dsimp only [integer?]
  cases op.apply? a b <;> rfl

namespace Engine

open AchievementLang.Expr Eval

/-- What evaluation of arithmetic ends with: the number, or the failure for a division by zero. -/
theorem run_reduce_arithmetic {e : Expr} (he : e.IsArithmetic) (m : Engine) (scope : Scope)
    (s : State) :
    (∃ n, e.value? = some n ∧ (m.reduce scope e).run s = (.ok (.integer n e.loc), s)) ∨
      (e.DividesByZero ∧
        ∃ l, (m.reduce scope e).run s = (.error (.at? .divisionByZero l), s)) := by
  induction he with
  | integer n l =>
    left
    exact ⟨n, rfl, by rw [reduce]; rfl⟩
  | @math op a b ha hb l iha ihb =>
    rw [reduce, run_bind]
    obtain ⟨x, hx, hrun⟩ | ⟨hzero, l', hrun⟩ := iha
    swap
    · rw [hrun]
      exact .inr ⟨hzero.left op b l, l', rfl⟩
    rw [hrun]
    dsimp only
    rw [run_bind]
    obtain ⟨y, hy, hrun⟩ | ⟨hzero, l', hrun⟩ := ihb
    swap
    · rw [hrun]
      exact .inr ⟨hzero.right op a l, l', rfl⟩
    rw [hrun]
    -- both operands are numbers, so the operation is carried out
    dsimp only
    rw [combine_integers, value?, hx, hy]
    dsimp only
    cases hresult : op.result? x y with
    | some value => exact .inl ⟨value, rfl, rfl⟩
    | none =>
      obtain ⟨hop, rfl⟩ := (Operator.result?_eq_none_iff op x y).1 hresult
      exact .inr ⟨.here hop a hy l, l, rfl⟩

end Engine

namespace Scope

open AchievementLang.Expr

/-- **Constant folding is exact.** Whatever the scope, the limit of calls and the state, evaluation
of arithmetic on literals ends with the number that it stands for, and fails if and only if
something in it is divided by zero; the state stays as it is. Quotient and remainder are those of
truncating division. -/
theorem reduce_arithmetic {e : Expr} (he : e.IsArithmetic) (limit : Int) (scope : Scope)
    (s : State) :
    (∀ n, e.value? = some n ↔
      (scope.reduce limit e).run s = (.ok (.integer n e.loc), s)) ∧
    (e.DividesByZero ↔
      ∃ l, (scope.reduce limit e).run s = (.error (.fault ⟨.divisionByZero, l⟩), s)) ∧
    (e.DividesByZero ∨ ∃ n, e.value? = some n) ∧
    (∀ l, Diagnostic.label (Fault.mk .divisionByZero l).diagnostic = "[E100] Division by zero") ∧
    ∀ a b : ℤ, b ≠ 0 → ∃ q r, Operator.div.result? a b = some q ∧
      Operator.mod.result? a b = some r ∧ a = b * q + r ∧ |r| < |b| ∧ 0 ≤ a * r := by
  have hlaws : ∀ a b : ℤ, b ≠ 0 → ∃ q r, Operator.div.result? a b = some q ∧
      Operator.mod.result? a b = some r ∧ a = b * q + r ∧ |r| < |b| ∧ 0 ≤ a * r :=
    fun a b hb => Operator.result?_div_mod hb a
  unfold Scope.reduce
  obtain ⟨x, hx, hrun⟩ | ⟨hzero, l, hrun⟩ :=
    Engine.run_reduce_arithmetic he (Engine.within limit scope) scope s
  · have hzero : ¬ e.DividesByZero := fun h => by
      rw [h.value?_eq_none] at hx
      cases hx
    rw [hx, hrun]
    refine ⟨fun n => ⟨?_, ?_⟩, ⟨fun h => absurd h hzero, ?_⟩, .inr ⟨x, rfl⟩, fun _ => rfl, hlaws⟩
    · rintro ⟨⟩
      rfl
    · rintro ⟨⟩
      rfl
    · rintro ⟨l, ⟨⟩⟩
  · rw [hzero.value?_eq_none, hrun]
    exact ⟨fun n => ⟨nofun, nofun⟩, ⟨fun _ => ⟨l, rfl⟩, fun _ => hzero⟩, .inl hzero, fun _ => rfl,
      hlaws⟩

/-- A remainder with dividend and divisor negative, both computed, and the dividend beyond any
machine word: `(2 - 1000000000000000000000000000000) % (3 - 10 / 2 * 2)`. -/
def nestedRemainder : Expr :=
  .math .mod
    (.math .sub (.integer 2 none) (.integer (10 ^ 30) none) none)
    (.math .sub (.integer 3 none)
      (.math .mul (.math .div (.integer 10 none) (.integer 2 none) none) (.integer 2 none) none)
      none)
    none

/-- It has the sign of the dividend. -/
theorem reduce_arithmetic_nestedRemainder :
    nestedRemainder.IsArithmetic ∧ nestedRemainder.value? = some (-6) ∧
      (Scope.reduce 64 {} nestedRemainder).run {} = (.ok (.integer (-6) none), {}) := by
  have he : nestedRemainder.IsArithmetic :=
    .math _ (.math _ (.integer _ _) (.integer _ _) _)
      (.math _ (.integer _ _)
        (.math _ (.math _ (.integer _ _) (.integer _ _) _) (.integer _ _) _) _) _
  have hvalue : nestedRemainder.value? = some (-6) := by decide +kernel
  exact ⟨he, hvalue, ((reduce_arithmetic he 64 {} {}).1 (-6)).1 hvalue⟩

end Scope

end AchievementLang

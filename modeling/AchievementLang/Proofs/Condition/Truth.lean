import AchievementLang.Compile.Normal
import Mathlib.Data.List.Basic

/-!
# The truth of conditions

Conditions are joined from comparisons and other atoms. Under an assignment of integers to the
sides of comparisons and of truth values to the atoms, every condition has a truth value
(`Expr.truth`); calls of the constant conditions have theirs whatever the assignment.

Negation normal form keeps the truth value, or turns it around (`truth_normalize`).
-/

namespace AchievementLang

/-! ## Connectives -/

/-- What the connective makes of truth values. -/
def Connective.joins : Connective → List Bool → Bool
  | .and, bs => bs.all id
  | .or, bs => bs.any id

namespace Connective

theorem joins_cons (op : Connective) (b : Bool) (bs : List Bool) :
    op.joins (b :: bs) = op.joins [b, op.joins bs] := by
  cases op <;> simp [joins]

@[simp] theorem joins_singleton (op : Connective) (b : Bool) : op.joins [b] = b := by
  cases op <;> simp [joins]

theorem joins_append (op : Connective) (as bs : List Bool) :
    op.joins (as ++ bs) = op.joins [op.joins as, op.joins bs] := by
  cases op <;> simp [joins]

/-- De Morgan's laws. -/
theorem joins_polarized (negated : Bool) (op : Connective) (bs : List Bool) :
    (Compile.polarized negated op).joins (bs.map (· ^^ negated)) = (op.joins bs ^^ negated) := by
  cases negated
  · simp [Compile.polarized]
  · induction bs with
    | nil => cases op <;> rfl
    | cons b bs ih =>
      rw [List.map_cons, joins_cons, ih]
      cases op <;> simp [Compile.polarized, dual, joins]

end Connective

/-! ## Truth values of conditions -/

/-- An assignment to the parts of conditions that have no structure of their own. -/
structure Valuation where
  /-- The number that a side of a comparison stands for. -/
  number : Expr → Int
  /-- The truth value of a condition that is neither joined nor negated nor a comparison. -/
  condition : Expr → Bool

namespace Expr

/-- The truth value of an atom, which is fixed for calls of constant conditions. -/
def atomTruth (functions : FunctionTable) (v : Valuation) : Expr → Bool
  | .call name args loc =>
    match functions.get? name with
    | some (.constant holds) => holds
    | _ => v.condition (.call name args loc)
  | e => v.condition e

mutual

/-- The truth value of a condition. -/
def truth (functions : FunctionTable) (v : Valuation) : Expr → Bool
  | .not e _ => !truth functions v e
  | .logic op es _ => op.joins (truths functions v es)
  | .compare r a b _ => r.holds (v.number a) (v.number b)
  | e => atomTruth functions v e

/-- The truth values of conditions. -/
def truths (functions : FunctionTable) (v : Valuation) : List Expr → List Bool
  | [] => []
  | e :: rest => truth functions v e :: truths functions v rest

end

variable {functions : FunctionTable} {v : Valuation}

theorem truths_eq_map (es : List Expr) : truths functions v es = es.map (truth functions v) := by
  induction es with
  | nil => rfl
  | cons e rest ih => rw [truths, ih, List.map_cons]

/-- A call of a constant condition has its truth value. -/
theorem truth_constant {name : String} {holds : Bool} (args : List Expr) (loc : Option Loc)
    (h : functions.get? name = some (.constant holds)) :
    truth functions v (.call name args loc) = holds := by
  simp [truth, atomTruth, h]

/-- The operands that a condition contributes to a connective have its truth value together. -/
theorem joins_operandsOf (op : Connective) (e : Expr) :
    op.joins ((e.operandsOf op).map (truth functions v)) = truth functions v e := by
  cases e with
  | logic op' es loc =>
    by_cases h : op' = op
    · rw [operandsOf, if_pos h, truth, truths_eq_map, h]
    · rw [operandsOf, if_neg h, List.map_singleton, Connective.joins_singleton]
  | _ => exact Connective.joins_singleton op _

end Expr

/-! ## Negation normal form -/

namespace Compile

open AchievementLang.Expr

variable {functions : FunctionTable} {v : Valuation}

/-- The opposite of a call is a call of the condition that holds exactly when it does not. -/
theorem truth_negateAtom_call (hc : ∀ b, functions.get? (Function.constantName b) =
    some (.constant b)) (name : String) (args : List Expr) (loc : Option Loc) :
    truth functions v (negateAtom (some functions) (.call name args loc)) =
      !truth functions v (.call name args loc) := by
  simp only [negateAtom, Option.bind_some, oppositeName?]
  cases h : functions.get? name with
  | none => rfl
  | some f =>
    cases f with
    | constant holds => rw [truth_constant _ _ (hc (!holds)), truth_constant _ _ h]
    | _ => rfl

mutual

/-- **The normal form of a condition holds exactly when the condition does**, and that of its
negation exactly when it does not. -/
theorem truth_normalize (hc : ∀ b, functions.get? (Function.constantName b) = some (.constant b))
    (negated : Bool) :
    ∀ e : Expr, truth functions v (normalize (some functions) negated e) =
      (truth functions v e ^^ negated)
  | .not e loc => by
    rw [normalize, truth_normalize hc (!negated) e, truth]
    cases negated <;> simp
  | .logic op es loc => by
    rw [normalize, truth, truths_eq_map, joins_normalizeOperands hc negated _ es, truth,
      truths_eq_map, ← Connective.joins_polarized, List.map_map]
    rfl
  | .compare r a b loc => by
    cases negated
    · simp [normalize]
    · simp [normalize, negateAtom, truth, Relation.holds_opposite]
  | .call name args loc => by
    cases negated
    · simp [normalize]
    · simp [normalize, truth_negateAtom_call hc]
  | .string _ _ | .integer _ _ | .var _ _ | .math _ _ _ _ | .array _ _ | .assign _ _ _ | .ret _ _
  | .declare _ _ _ _ _ => by
    cases negated <;> simp [normalize, negateAtom, truth]

theorem joins_normalizeOperands
    (hc : ∀ b, functions.get? (Function.constantName b) = some (.constant b)) (negated : Bool)
    (op : Connective) :
    ∀ es : List Expr,
      op.joins ((normalizeOperands (some functions) negated op es).map (truth functions v)) =
        op.joins (es.map fun e => (truth functions v e ^^ negated))
  | [] => rfl
  | e :: rest => by
    rw [normalizeOperands, List.map_append, Connective.joins_append, joins_operandsOf,
      truth_normalize hc negated e, joins_normalizeOperands hc negated op rest, List.map_cons]
    exact (Connective.joins_cons op _ _).symm

end

end Compile

end AchievementLang

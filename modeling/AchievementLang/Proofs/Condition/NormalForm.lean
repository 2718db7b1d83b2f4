import AchievementLang.Proofs.Condition.Meaning

/-!
# Negation normal forms

What has an opposite is not negated in a negation normal form, and no node stands right below one
of its connective (`IsNegationNormal`). These are exactly the expressions that normalizing leaves as
they are (`normalize_eq_self_iff`): it arrives at one from every expression, negated or not
(`isNegationNormal_normalize`), and keeps each of them (`normalize_of_isNegationNormal`). Together
with the truth value this is all of what a normal form is for (`truth_and_shape_normalize`).
-/

namespace AchievementLang

namespace Expr

/-- The connective of a node that joins conditions. -/
def connective? : Expr → Option Connective
  | .logic op _ _ => some op
  | _ => none

/-- The node neither negates nor joins conditions. -/
def isUnit : Expr → Bool
  | .not _ _ | .logic _ _ _ => false
  | _ => true

/-- The negation of the expression can be written without one above it: below a negation or a
connective, as the opposite comparison, or as a call of the opposite constant condition. -/
inductive HasOpposite (functions : FunctionTable) : Expr → Prop
  | not (e : Expr) (l : Option Loc) : HasOpposite functions (.not e l)
  | logic (op : Connective) (es : List Expr) (l : Option Loc) :
    HasOpposite functions (.logic op es l)
  | compare (r : Relation) (a b : Expr) (l : Option Loc) : HasOpposite functions (.compare r a b l)
  | constant {name : String} {holds : Bool} (h : functions.get? name = some (.constant holds))
    (args : List Expr) (l : Option Loc) : HasOpposite functions (.call name args l)

/-- Negations stand only above what has no opposite, where that stands in the script, and no
operand of a connective is a node of the same connective. -/
inductive IsNegationNormal (functions : FunctionTable) : Expr → Prop
  | unit {e : Expr} (h : e.isUnit) : IsNegationNormal functions e
  | negation {e : Expr} (h : ¬HasOpposite functions e) :
    IsNegationNormal functions (.not e e.loc)
  | logic (op : Connective) {es : List Expr} (hes : ∀ e ∈ es, IsNegationNormal functions e)
    (hother : ∀ e ∈ es, e.connective? ≠ some op) (l : Option Loc) :
    IsNegationNormal functions (.logic op es l)

variable {functions : FunctionTable} {e : Expr} {op : Connective}

theorem connective?_of_isUnit (h : e.isUnit) : e.connective? = none := by
  cases e with
  | logic => cases h
  | _ => rfl

theorem operandsOf_of_connective?_ne (h : e.connective? ≠ some op) : e.operandsOf op = [e] := by
  cases e with
  | logic op' es l => rw [operandsOf, if_neg fun hop => h (congrArg some hop)]
  | _ => rfl

/-- What a normal form contributes to a connective are normal forms that are no nodes of it. -/
theorem IsNegationNormal.mem_operandsOf (h : IsNegationNormal functions e) {t : Expr}
    (ht : t ∈ e.operandsOf op) : IsNegationNormal functions t ∧ t.connective? ≠ some op := by
  by_cases hop : e.connective? = some op
  · cases h with
    | @logic op' es hes hother l =>
      obtain rfl : op' = op := Option.some.inj hop
      rw [operandsOf, if_pos rfl] at ht
      exact ⟨hes t ht, hother t ht⟩
    | unit h => exact absurd (connective?_of_isUnit h ▸ hop) (Option.some_ne_none op).symm
    | negation h => cases hop
  · rw [operandsOf_of_connective?_ne hop, List.mem_singleton] at ht
    exact ht ▸ ⟨h, hop⟩

end Expr

namespace Compile

open AchievementLang.Expr

variable {functions : FunctionTable} {e : Expr}

/-! ## Units -/

theorem normalize_unit (h : e.isUnit) (negated : Bool) :
    normalize (some functions) negated e =
      if negated then negateAtom (some functions) e else e := by
  cases e with
  | not | logic => cases h
  | _ => rfl

theorem negateAtom_of_not_hasOpposite (h : ¬HasOpposite functions e) :
    negateAtom (some functions) e = .not e e.loc := by
  cases e with
  | compare r a b l => exact absurd (.compare r a b l) h
  | call name args l =>
    have hname : oppositeName? functions name = none := by
      unfold oppositeName?
      split
      next holds hget => exact absurd (.constant hget args l) h
      next => rfl
    simp only [negateAtom, Option.bind_some, hname, Expr.loc]
  | _ => rfl

/-- The negation of a unit is its opposite, which is a unit again, or else stands above it. -/
theorem isNegationNormal_negateAtom (h : e.isUnit) :
    IsNegationNormal functions (negateAtom (some functions) e) := by
  by_cases hopposite : HasOpposite functions e
  · cases hopposite with
    | not | logic => cases h
    | compare => exact .unit rfl
    | constant hget args l =>
      simp only [negateAtom, Option.bind_some, oppositeName?, hget]
      exact .unit rfl
  · rw [negateAtom_of_not_hasOpposite hopposite]
    exact .negation hopposite

/-! ## Normal forms -/

theorem isNegationNormal_normalize_unit (h : e.isUnit) (negated : Bool) :
    IsNegationNormal functions (normalize (some functions) negated e) := by
  rw [normalize_unit h]
  cases negated
  · exact .unit h
  · exact isNegationNormal_negateAtom h

mutual

/-- **Normalizing arrives at a negation normal form**, of any expression and of its negation. -/
theorem isNegationNormal_normalize (negated : Bool) :
    ∀ e : Expr, IsNegationNormal functions (normalize (some functions) negated e)
  | .not e l => by
    rw [normalize]
    exact isNegationNormal_normalize (!negated) e
  | .logic op es l => by
    -- Whether an operand is merged is decided by the connective that the node ends up with.
    have hes := isNegationNormal_normalizeOperands negated (polarized negated op) es
    rw [normalize]
    exact .logic _ (fun t ht => (hes t ht).1) (fun t ht => (hes t ht).2) l
  | .compare _ _ _ _ | .call _ _ _ | .string _ _ | .integer _ _ | .var _ _ | .math _ _ _ _
  | .array _ _ | .assign _ _ _ | .ret _ _ | .declare _ _ _ _ _ =>
    isNegationNormal_normalize_unit rfl negated

theorem isNegationNormal_normalizeOperands (negated : Bool) (op : Connective) :
    ∀ es : List Expr, ∀ t ∈ normalizeOperands (some functions) negated op es,
      IsNegationNormal functions t ∧ t.connective? ≠ some op
  | [] => fun t ht => by cases ht
  | e :: rest => fun t ht => by
    rw [normalizeOperands, List.mem_append] at ht
    obtain ht | ht := ht
    · exact (isNegationNormal_normalize negated e).mem_operandsOf ht
    · exact isNegationNormal_normalizeOperands negated op rest t ht

end

/-- **A normal form is left as it is.** -/
theorem normalize_of_isNegationNormal (h : IsNegationNormal functions e) :
    normalize (some functions) false e = e := by
  induction h with
  | unit h => rw [normalize_unit h, if_neg Bool.false_ne_true]
  | @negation e h =>
    -- What has no opposite is a unit, so it is negated as it stands.
    have hunit : e.isUnit := by
      cases e with
      | not => exact absurd (.not _ _) h
      | logic => exact absurd (.logic _ _ _) h
      | _ => rfl
    rw [normalize, Bool.not_false, normalize_unit hunit, if_pos rfl,
      negateAtom_of_not_hasOpposite h]
  | @logic op es hes hother l ih =>
    have hoperands : normalizeOperands (some functions) false op es = es := by
      rw [normalizeOperands_eq_flatMap]
      calc es.flatMap (fun e => (normalize (some functions) false e).operandsOf op)
        _ = es.flatMap fun e => [e] := List.flatMap_congr fun e he => by
            rw [ih e he, operandsOf_of_connective?_ne (hother e he)]
        _ = es := List.flatMap_singleton' es
    rw [normalize, polarized, if_neg Bool.false_ne_true, hoperands]

/-- **The negation normal forms are what normalizing leaves as it is.** -/
theorem normalize_eq_self_iff :
    normalize (some functions) false e = e ↔ IsNegationNormal functions e :=
  ⟨fun h => h ▸ isNegationNormal_normalize false e, normalize_of_isNegationNormal⟩

/-- **Normalizing is correct, complete and idempotent.** Where the names of the constant conditions
stand for these, the normal form of an expression, or of its negation, holds exactly when that
does, whatever is assigned to comparisons and atoms. It is a negation normal form, and normalizing
it once more changes nothing. -/
theorem truth_and_shape_normalize
    (hc : ∀ b, functions.get? (Function.constantName b) = some (.constant b)) (negated : Bool)
    (e : Expr) :
    let normal := normalize (some functions) negated e
    (∀ v, truth functions v normal = (truth functions v e ^^ negated)) ∧
      IsNegationNormal functions normal ∧ normalize (some functions) false normal = normal :=
  have hnormal := isNegationNormal_normalize negated e
  ⟨fun _ => truth_normalize hc negated e, hnormal, normalize_of_isNegationNormal hnormal⟩

/-- Below the negated disjunction, what was negated there merges with the conjunction that it has
become. Of a comparison, a constant condition and another call, only the call keeps its negation. -/
theorem truth_and_shape_normalize_switched :
    let call (name : String) : Expr := .call name [] none
    let less : Expr := .compare .lt (call "byte") (.integer 5 none) none
    let notLess : Expr := .compare .ge (call "byte") (.integer 5 none) none
    let e : Expr := .logic .or
      [.not (.logic .and [less, call "always_true"] none) none,
        .logic .and [call "repeated", call "always_false", less] none] none
    let normal : Expr := .logic .and
      [less, call "always_true",
        .logic .or [.not (call "repeated") none, call "always_true", notLess] none] none
    (∀ b, FunctionTable.initial.get? (Function.constantName b) = some (.constant b)) ∧
      normalize (some .initial) true e = normal ∧
      (∀ v, truth .initial v normal = !truth .initial v e) ∧
      IsNegationNormal .initial normal ∧ normalize (some .initial) false normal = normal := by
  intro call less notLess e normal
  have hc : ∀ b, FunctionTable.initial.get? (Function.constantName b) = some (.constant b) := by
    rintro (_ | _) <;> rfl
  have hnormal : normalize (some .initial) true e = normal := rfl
  obtain ⟨htruth, hshape, hagain⟩ := truth_and_shape_normalize hc true e
  rw [hnormal] at htruth hshape hagain
  exact ⟨hc, hnormal, fun v => (htruth v).trans (Bool.xor_true _), hshape, hagain⟩

end Compile

end AchievementLang

import AchievementLang.Proofs.Compile.Rows
import AchievementLang.Proofs.Condition.OneGroup

/-!
# The shape of achievement triggers

Which conditions of an achievement are accepted, for conditions that join comparisons and constant
conditions. The shape is that of the negation normal form, which is given here in two passes:
negations are pushed down to the atoms (`Expr.pushed`), then nodes right below a node of their
connective are merged into it (`Expr.merged`). The compiler does both at once and arrives at the
same (`normalize_eq_normalForm`).

The normal form alternates between the connectives (`IsNormal`), so a disjunction can only stand at
the top, among the terms at the top, or too deep. Each function of the compiler accepts exactly what
has no misplaced disjunction (`Decides`), and together they accept exactly the conditions with at
most one disjunction at the top, of conjunctions of atoms (`trigger_fits`).
-/

namespace AchievementLang

namespace Expr

/-! ## Negation normal form -/

/-- The opposite of an atom: the opposite comparison, or the other constant condition. Nothing else
has an opposite. -/
def opposed : Expr → Expr
  | .compare r a b l => .compare r.opposite a b l
  | .call name args l =>
    if name = Function.constantName true then .call (Function.constantName false) [] l
    else if name = Function.constantName false then .call (Function.constantName true) [] l
    else .not (.call name args l) l
  | e => .not e e.loc

mutual

/-- The condition, or its negation, with negations pushed down to the atoms. -/
def pushed (negated : Bool) : Expr → Expr
  | .not e _ => e.pushed (!negated)
  | .logic op es l => .logic (if negated then op.dual else op) (pushedAll negated es) l
  | e => if negated then e.opposed else e

/-- The conditions, or their negations, with negations pushed down to the atoms. -/
def pushedAll (negated : Bool) : List Expr → List Expr
  | [] => []
  | e :: rest => e.pushed negated :: pushedAll negated rest

end

mutual

/-- The condition with directly nested nodes of one connective merged, at every depth. -/
def merged : Expr → Expr
  | .logic op es l => .logic op (mergedOperands op es) l
  | e => e

/-- The operands of a node of the connective, where those that are such nodes are replaced by their
own. -/
def mergedOperands (op : Connective) : List Expr → List Expr
  | [] => []
  | e :: rest => e.merged.operandsOf op ++ mergedOperands op rest

end

/-- The negation normal form, with directly nested nodes of one connective merged. -/
def normalForm (e : Expr) : Expr := (e.pushed false).merged

/-- The node is a disjunction. -/
def isOr : Expr → Bool
  | .logic .or _ _ => true
  | _ => false

theorem pushedAll_eq_map (negated : Bool) (es : List Expr) :
    pushedAll negated es = es.map (pushed negated) := by
  induction es with
  | nil => rfl
  | cons e rest ih => rw [pushedAll, ih, List.map_cons]

theorem mergedOperands_eq_flatMap (op : Connective) (es : List Expr) :
    mergedOperands op es = es.flatMap fun e => e.merged.operandsOf op := by
  induction es with
  | nil => rfl
  | cons e rest ih => rw [mergedOperands, ih, List.flatMap_cons]

end Expr

namespace Compile

open Wire AchievementLang.Expr

variable (functions : FunctionTable)

/-! ## Atoms and what joins them -/

/-- An atom and its rows: a call of a constant condition, or a comparison that has rows on its
own. -/
inductive AtomRows : Expr → Group → Prop
  | constant (holds : Bool) (l : Option Loc) :
    AtomRows (.call (Function.constantName holds) [] l) [constantRow holds]
  | comparison {r : Relation} {a b : Expr} {l : Option Loc} {rows : Group}
    (h : comparisonRows functions r a b l = .ok rows) : AtomRows (.compare r a b l) rows

/-- A call of a constant condition, or a comparison that compiles on its own. -/
def IsAtom (e : Expr) : Prop := ∃ rows, AtomRows functions e rows

/-- Joins atoms with negations, conjunctions and disjunctions. -/
inductive JoinsAtoms : Expr → Prop
  | atom {e : Expr} (h : IsAtom functions e) : JoinsAtoms e
  | not {e : Expr} (h : JoinsAtoms e) (l : Option Loc) : JoinsAtoms (.not e l)
  | logic (op : Connective) {es : List Expr} (hes : ∀ e ∈ es, JoinsAtoms e) (l : Option Loc) :
    JoinsAtoms (.logic op es l)

/-- The rows of atoms, one after the other. -/
def RowsOf (es : List Expr) (rows : Group) : Prop :=
  ∃ parts, List.Forall₂ (AtomRows functions) es parts ∧ rows = parts.flatten

/-- An atom, or a conjunction of atoms. -/
inductive IsClause : Expr → Prop
  | atom {e : Expr} (h : IsAtom functions e) : IsClause e
  | conjunction {es : List Expr} (hes : ∀ e ∈ es, IsAtom functions e) (l : Option Loc) :
    IsClause (.logic .and es l)

/-- The shape of the conditions of achievements: an atom, a disjunction of clauses, or a conjunction
of atoms with at most one disjunction of clauses among them. -/
inductive FitsTrigger : Expr → Prop
  | atom {e : Expr} (h : IsAtom functions e) : FitsTrigger e
  | disjunction {es : List Expr} (hes : ∀ e ∈ es, IsClause functions e) (l : Option Loc) :
    FitsTrigger (.logic .or es l)
  | conjunction {es : List Expr}
    (hes : ∀ e ∈ es, IsAtom functions e ∨
      ∃ as l, e = .logic .or as l ∧ ∀ a ∈ as, IsClause functions a)
    (hone : es.countP isOr ≤ 1) (l : Option Loc) : FitsTrigger (.logic .and es l)

/-- The operands of the disjunctions among the terms of a condition. -/
def alternatives (e : Expr) : List Expr :=
  ((conjuncts e).filter isOr).flatMap (·.operandsOf .or)

/-- The core has the rows of the terms that are no disjunction, and each alternate the rows of an
operand of the disjunction, in order. -/
structure IsSplit (e : Expr) (t : Trigger) : Prop where
  core : RowsOf functions ((conjuncts e).filter (!·.isOr)) t.core
  alternates : List.Forall₂ (fun a => RowsOf functions (conjuncts a)) (alternatives e) t.alternates

/-- The result is one of those wanted if the condition holds, and if it does not, a disjunction is
refused. -/
structure Decides {α : Type} (r : Except Failure α) (condition : Prop) (wanted : α → Prop) :
    Prop where
  accepts : condition → ∃ x, r = .ok x ∧ wanted x
  refuses : ¬condition → ∃ f, r = .error (.fault f) ∧ f.cause.kind = .misplacedOr

variable {functions}

/-! ## The normal form of what joins atoms -/

theorem exists_sumRows (op' : Relation) {op : Relation} {ss : List Summand} {right : Field}
    {l : Option Loc} {rows : Group} (h : sumRows functions op ss right l = .ok rows) :
    ∃ rows', sumRows functions op' ss right l = .ok rows' := by
  obtain ⟨added, subtracted, hadded, hsubtracted, hrows⟩ := sumRows_eq_ok_iff.1 h
  obtain ⟨last, hlast, -⟩ := comparingRows_eq_some_iff.1 hrows
  exact ⟨_, sumRows_eq_ok_iff.2 ⟨added, subtracted, hadded, hsubtracted,
    comparingRows_eq_some_iff.2 ⟨last, hlast, rfl⟩⟩⟩

theorem exists_orderedRows (op' : Relation) {op : Relation} {a b : Expr} {l : Option Loc}
    {rows : Group} (h : orderedRows functions op a b l = .ok rows) :
    ∃ rows', orderedRows functions op' a b l = .ok rows' := by
  unfold orderedRows at h ⊢
  split at h
  · cases h
  split at h
  · dsimp only at h ⊢
    split at h
    next hall => exact ⟨_, if_pos hall⟩
    next hall =>
      rw [if_neg hall]
      split at h
      · cases h
      next hlimit =>
        rw [if_neg hlimit]
        split at h
        · cases h
        · exact exists_sumRows op' h
  · split at h
    · cases h
    next hconstants =>
      rw [if_neg hconstants]
      split at h
      · cases h
      · exact exists_sumRows op' h

/-- **Whether a comparison compiles does not depend on the relation.** -/
theorem exists_comparisonRows (op' : Relation) {op : Relation} {a b : Expr} {l : Option Loc}
    {rows : Group} (h : comparisonRows functions op a b l = .ok rows) :
    ∃ rows', comparisonRows functions op' a b l = .ok rows' := by
  unfold comparisonRows at h ⊢
  split at h
  next hsides =>
    rw [if_pos hsides]
    exact exists_orderedRows _ h
  next hsides =>
    rw [if_neg hsides]
    exact exists_orderedRows _ h

namespace IsAtom

variable {e : Expr}

theorem opposed (h : IsAtom functions e) : IsAtom functions e.opposed := by
  obtain ⟨rows, h⟩ := h
  cases h with
  | constant holds l =>
    cases holds
    · exact ⟨_, .constant true l⟩
    · exact ⟨_, .constant false l⟩
  | comparison h =>
    obtain ⟨rows', h'⟩ := exists_comparisonRows _ h
    exact ⟨rows', .comparison h'⟩

theorem pushed (h : IsAtom functions e) (negated : Bool) :
    e.pushed negated = if negated then e.opposed else e := by
  obtain ⟨rows, h⟩ := h
  cases h <;> rfl

theorem merged (h : IsAtom functions e) : e.merged = e := by
  obtain ⟨rows, h⟩ := h
  cases h <;> rfl

theorem operandsOf (h : IsAtom functions e) (op : Connective) : e.operandsOf op = [e] := by
  obtain ⟨rows, h⟩ := h
  cases h <;> rfl

theorem isOr (h : IsAtom functions e) : e.isOr = false := by
  obtain ⟨rows, h⟩ := h
  cases h <;> rfl

end IsAtom

section

variable (hc : ∀ b, functions.get? (Function.constantName b) = some (.constant b))
include hc

theorem normalize_atom {e : Expr} (h : IsAtom functions e) (negated : Bool) :
    normalize (some functions) negated e = if negated then e.opposed else e := by
  obtain ⟨rows, h⟩ := h
  cases h with
  | constant holds l =>
    cases negated
    · rfl
    · simp only [normalize, negateAtom, Option.bind_some, oppositeName?, hc holds, if_true]
      cases holds <;> rfl
  | comparison h => cases negated <;> rfl

/-- **The compiler's normal form** of what joins atoms, found in one pass, is the one that two
passes give. -/
theorem normalize_eq_normalForm {e : Expr} (h : JoinsAtoms functions e) (negated : Bool) :
    normalize (some functions) negated e = (e.pushed negated).merged := by
  induction h generalizing negated with
  | atom h =>
    rw [normalize_atom hc h, h.pushed]
    cases negated
    · exact h.merged.symm
    · exact h.opposed.merged.symm
  | not h l ih => exact ih (!negated)
  | @logic op es hes l ih =>
    rw [normalize, normalizeOperands_eq_flatMap, Expr.pushed, Expr.merged, pushedAll_eq_map,
      mergedOperands_eq_flatMap, List.flatMap_map]
    refine congrArg (Expr.logic _ · l) (List.flatMap_congr fun e he => ?_)
    rw [ih e he negated]
    rfl

end

/-- Atoms joined with conjunctions of disjunctions of conjunctions, and so on. -/
inductive IsNormal (functions : FunctionTable) : Expr → Prop
  | atom {e : Expr} (h : IsAtom functions e) : IsNormal functions e
  | logic (op : Connective) {es : List Expr} (hes : ∀ e ∈ es, IsNormal functions e)
    (hother : ∀ e ∈ es, e.operandsOf op = [e]) (l : Option Loc) :
    IsNormal functions (.logic op es l)

namespace IsNormal

variable {e : Expr}

/-- The operands that a normal form contributes to a node of the connective are no such nodes. -/
theorem mem_operandsOf (h : IsNormal functions e) {op : Connective} {t : Expr}
    (ht : t ∈ e.operandsOf op) : IsNormal functions t ∧ t.operandsOf op = [t] := by
  cases h with
  | atom h =>
    rw [h.operandsOf, List.mem_singleton] at ht
    exact ht ▸ ⟨.atom h, h.operandsOf op⟩
  | @logic op' es hes hother l =>
    by_cases hop : op' = op
    · rw [Expr.operandsOf, if_pos hop] at ht
      exact ⟨hes t ht, hop ▸ hother t ht⟩
    · rw [Expr.operandsOf, if_neg hop, List.mem_singleton] at ht
      subst ht
      exact ⟨.logic op' hes hother l, by rw [Expr.operandsOf, if_neg hop]⟩

/-- A term that is no conjunction is an atom or a disjunction. -/
theorem isAtom_or_isOr (h : IsNormal functions e) (hand : conjuncts e = [e]) :
    IsAtom functions e ∨ ∃ as l, e = .logic .or as l := by
  cases h with
  | atom h => exact .inl h
  | @logic op es hes hother l =>
    cases op with
    | or => exact .inr ⟨es, l, rfl⟩
    | and =>
      -- a conjunction has its own operands, not itself
      have hself : es = [.logic .and es l] := hand
      have hsize := congrArg sizeOf hself
      simp only [List.cons.sizeOf_spec, List.nil.sizeOf_spec, Expr.logic.sizeOf_spec] at hsize
      omega

end IsNormal

/-- **The normal form alternates between the connectives.** -/
theorem JoinsAtoms.isNormal {e : Expr} (h : JoinsAtoms functions e) (negated : Bool) :
    IsNormal functions (e.pushed negated).merged := by
  induction h generalizing negated with
  | atom h =>
    rw [h.pushed]
    cases negated
    · exact h.merged.symm ▸ .atom h
    · exact h.opposed.merged.symm ▸ .atom h.opposed
  | not h l ih => exact ih (!negated)
  | @logic op es hes l ih =>
    rw [Expr.pushed, Expr.merged, pushedAll_eq_map, mergedOperands_eq_flatMap, List.flatMap_map]
    have hmem : ∀ t ∈ es.flatMap fun e => (e.pushed negated).merged.operandsOf
        (if negated then op.dual else op), IsNormal functions t ∧
          t.operandsOf (if negated then op.dual else op) = [t] := by
      intro t ht
      obtain ⟨e, he, ht⟩ := List.mem_flatMap.1 ht
      exact (ih e he negated).mem_operandsOf ht
    exact .logic _ (fun t ht => (hmem t ht).1) (fun t ht => (hmem t ht).2) l

/-! ## What each function of the compiler accepts -/

/-- Rows for a list of atoms are found from the rows of each. -/
theorem rowsOf_cons {e : Expr} {es : List Expr} {here rows : Group}
    (he : AtomRows functions e here) (hes : RowsOf functions es rows) :
    RowsOf functions (e :: es) (here ++ rows) := by
  obtain ⟨parts, hparts, rfl⟩ := hes
  exact ⟨here :: parts, .cons he hparts, rfl⟩

theorem not_isAtom_logic (op : Connective) (es : List Expr) (l : Option Loc) :
    ¬IsAtom functions (.logic op es l) := by
  rintro ⟨rows, h⟩
  cases h

theorem isClause_iff {e : Expr} : IsClause functions e ↔ ∀ t ∈ conjuncts e, IsAtom functions t := by
  constructor
  · rintro (h | ⟨hes, l⟩)
    · rw [conjuncts, h.operandsOf]
      exact fun t ht => (List.mem_singleton.1 ht) ▸ h
    · exact hes
  · intro h
    obtain he | ⟨es, l, rfl, he⟩ := operandsOf_cases .and e
    · exact .atom (h e (by rw [conjuncts, he]; exact List.mem_singleton_self e))
    · exact .conjunction (fun t ht => h t (by rw [conjuncts, he]; exact ht)) l

section

variable (hc : ∀ b, functions.get? (Function.constantName b) = some (.constant b))
include hc

theorem AtomRows.conditionRows {e : Expr} {rows : Group} (h : AtomRows functions e rows) :
    Compile.conditionRows functions false e = .ok rows := by
  cases h with
  | constant holds l => simp [Compile.conditionRows, hc holds]
  | comparison h => exact h

/-- Terms that are no conjunctions have the rows of a conjunction exactly if none is a
disjunction. -/
theorem decides_conjunctionRows {ts : List Expr}
    (hts : ∀ t ∈ ts, IsAtom functions t ∨ ∃ as l, t = .logic .or as l) :
    Decides (conjunctionRows functions false ts) (∀ t ∈ ts, IsAtom functions t)
      (RowsOf functions ts) := by
  induction ts with
  | nil => exact ⟨fun _ => ⟨[], rfl, [], .nil, rfl⟩, fun h => absurd (by simp) h⟩
  | cons t rest ih =>
    obtain ⟨ht, hrest⟩ := List.forall_mem_cons.1 hts
    have ih := ih hrest
    rw [conjunctionRows_cons]
    obtain ⟨here, hhere⟩ | ⟨as, l, rfl⟩ := ht
    · rw [hhere.conditionRows hc]
      refine ⟨fun h => ?_, fun h => ?_⟩
      · obtain ⟨rows, hrows, hof⟩ := ih.accepts (List.forall_mem_cons.1 h).2
        exact ⟨here ++ rows, by rw [hrows]; rfl, rowsOf_cons hhere hof⟩
      · obtain ⟨f, hf, hkind⟩ := ih.refuses fun h' => h (List.forall_mem_cons.2 ⟨⟨here, hhere⟩, h'⟩)
        exact ⟨f, by rw [hf]; rfl, hkind⟩
    · exact ⟨fun h => absurd (h _ (by simp)) (not_isAtom_logic .or as l),
        fun _ => ⟨⟨.orInCondition, l⟩, rfl, rfl⟩⟩

theorem IsNormal.decides_conditionRows {e : Expr} (h : IsNormal functions e) :
    Decides (Compile.conditionRows functions false e) (IsClause functions e)
      (RowsOf functions (conjuncts e)) := by
  rw [← conjunctionRows_conjuncts, isClause_iff]
  refine decides_conjunctionRows hc fun t ht => ?_
  obtain ⟨hnormal, hand⟩ := h.mem_operandsOf ht
  exact hnormal.isAtom_or_isOr hand

/-- Alternatives become groups exactly if they are clauses. -/
theorem decides_alternateGroups {es : List Expr} (hes : ∀ e ∈ es, IsNormal functions e) :
    Decides (alternateGroups functions es) (∀ e ∈ es, IsClause functions e)
      (List.Forall₂ (fun e => RowsOf functions (conjuncts e)) es) := by
  induction es with
  | nil => exact ⟨fun _ => ⟨[], rfl, .nil⟩, fun h => absurd (by simp) h⟩
  | cons e rest ih =>
    obtain ⟨he, hrest⟩ := List.forall_mem_cons.1 hes
    have here := he.decides_conditionRows hc
    have ih := ih hrest
    simp only [alternateGroups]
    by_cases hclause : IsClause functions e
    · obtain ⟨rows, hrows, hof⟩ := here.accepts hclause
      rw [hrows]
      refine ⟨fun h => ?_, fun h => ?_⟩
      · obtain ⟨groups, hgroups, hall⟩ := ih.accepts (List.forall_mem_cons.1 h).2
        exact ⟨rows :: groups, by rw [hgroups], .cons hof hall⟩
      · obtain ⟨f, hf, hkind⟩ := ih.refuses fun h' => h (List.forall_mem_cons.2 ⟨hclause, h'⟩)
        exact ⟨f, by rw [hf], hkind⟩
    · obtain ⟨f, hf, hkind⟩ := here.refuses hclause
      exact ⟨fun h => absurd (List.forall_mem_cons.1 h).1 hclause, fun _ => ⟨f, by rw [hf], hkind⟩⟩

theorem AtomRows.coreRows_cons {e : Expr} {here : Group} (h : AtomRows functions e here)
    (outer : Option Loc) (alternative : Option (List Expr)) (rest : List Expr) :
    coreRows functions outer alternative (e :: rest) =
      (coreRows functions outer alternative rest).map fun split => (here ++ split.1, split.2) := by
  have hrows := h.conditionRows hc
  cases hrest : coreRows functions outer alternative rest <;>
    cases h <;> simp only [coreRows, hrows, hrest, Except.map]

/-- Terms are split exactly if there is at most one disjunction among them and before them. -/
theorem decides_coreRows (outer : Option Loc) {ts : List Expr}
    (hts : ∀ t ∈ ts, IsAtom functions t ∨ ∃ as l, t = .logic .or as l)
    (alternative : Option (List Expr)) :
    Decides (coreRows functions outer alternative ts)
      (alternative.toList.length + ts.countP isOr ≤ 1)
      (fun split => RowsOf functions (ts.filter (!·.isOr)) split.1 ∧
        split.2.getD [] = alternative.getD [] ++ (ts.filter isOr).flatMap (·.operandsOf .or)) := by
  induction ts generalizing alternative with
  | nil =>
    refine ⟨fun _ => ⟨_, rfl, ⟨[], .nil, rfl⟩, by simp⟩, fun h => absurd ?_ h⟩
    cases alternative <;> simp
  | cons t rest ih =>
    obtain ⟨ht, hrest⟩ := List.forall_mem_cons.1 hts
    obtain hatom | ⟨as, l, rfl⟩ := ht
    · obtain ⟨here, hhere⟩ := id hatom
      have ih := ih hrest alternative
      have hor := hatom.isOr
      rw [hhere.coreRows_cons hc, List.countP_cons_of_neg (by simp [hor]),
        List.filter_cons_of_pos (by simp [hor]), List.filter_cons_of_neg (by simp [hor])]
      refine ⟨fun h => ?_, fun h => ?_⟩
      · obtain ⟨split, hsplit, hof, hfound⟩ := ih.accepts h
        exact ⟨(here ++ split.1, split.2), by rw [hsplit]; rfl, rowsOf_cons hhere hof, hfound⟩
      · obtain ⟨f, hf, hkind⟩ := ih.refuses h
        exact ⟨f, by rw [hf]; rfl, hkind⟩
    · rw [List.countP_cons_of_pos rfl, List.filter_cons_of_neg (by simp [isOr]),
        List.filter_cons_of_pos rfl, List.flatMap_cons]
      cases alternative with
      | none =>
        have ih := ih hrest (some as)
        simpa [coreRows, Nat.add_comm, Expr.operandsOf] using ih
      | some es =>
        exact ⟨fun h => by simp at h, fun _ => ⟨⟨.secondOr, l.or outer⟩, rfl, rfl⟩⟩

end

/-! ## Triggers -/

/-- A normal form has the shape of a trigger exactly if there is at most one disjunction among its
terms, and that joins clauses. -/
theorem IsNormal.fitsTrigger_iff {e : Expr} (h : IsNormal functions e) :
    FitsTrigger functions e ↔
      (conjuncts e).countP isOr ≤ 1 ∧ ∀ a ∈ alternatives e, IsClause functions a := by
  constructor
  · rintro (h | ⟨hes, l⟩ | ⟨hes, hone, l⟩)
    · have hterms : conjuncts e = [e] := h.operandsOf .and
      simp [alternatives, hterms, h.isOr]
    · have hterms : ∀ es, conjuncts (.logic .or es l) = [.logic .or es l] := fun _ => rfl
      simpa [alternatives, hterms, isOr, Expr.operandsOf] using hes
    · refine ⟨hone, fun a ha => ?_⟩
      obtain ⟨t, ht, ha⟩ := List.mem_flatMap.1 ha
      obtain ⟨ht, hor⟩ := List.mem_filter.1 ht
      obtain hatom | ⟨as, l', rfl, has⟩ := hes t ht
      · rw [hatom.isOr] at hor
        cases hor
      · exact has a ha
  · rintro ⟨hone, halternatives⟩
    have hterms : ∀ t ∈ conjuncts e, IsAtom functions t ∨
        ∃ as l, t = .logic .or as l ∧ ∀ a ∈ as, IsClause functions a := by
      intro t ht
      obtain ⟨hnormal, hand⟩ := h.mem_operandsOf ht
      obtain hatom | ⟨as, l, rfl⟩ := hnormal.isAtom_or_isOr hand
      · exact .inl hatom
      · exact .inr ⟨as, l, rfl, fun a ha => halternatives a
          (List.mem_flatMap.2 ⟨_, List.mem_filter.2 ⟨ht, rfl⟩, ha⟩)⟩
    cases h with
    | atom h => exact .atom h
    | @logic op es hes hother l =>
      cases op with
      | and => exact .conjunction hterms hone l
      | or =>
        obtain hatom | ⟨as, l', has, hclauses⟩ := hterms _ (List.mem_singleton_self _)
        · exact absurd hatom (not_isAtom_logic .or es l)
        · cases has
          exact .disjunction hclauses l

/-- Compiling a normal form decides its shape. -/
theorem JoinsAtoms.decides_trigger
    (hc : ∀ b, functions.get? (Function.constantName b) = some (.constant b)) {e : Expr}
    (h : JoinsAtoms functions e) :
    Decides (trigger functions e) (FitsTrigger functions e.normalForm)
      (IsSplit functions e.normalForm) := by
  have hnormal : IsNormal functions e.normalForm := h.isNormal false
  have hterms : ∀ t ∈ conjuncts e.normalForm,
      IsAtom functions t ∨ ∃ as l, t = .logic .or as l := by
    intro t ht
    obtain ⟨hnormal, hand⟩ := hnormal.mem_operandsOf ht
    exact hnormal.isAtom_or_isOr hand
  have halternatives : ∀ a ∈ alternatives e.normalForm, IsNormal functions a := by
    intro a ha
    obtain ⟨t, ht, ha⟩ := List.mem_flatMap.1 ha
    have ht := (hnormal.mem_operandsOf (List.mem_filter.1 ht).1).1
    exact (ht.mem_operandsOf ha).1
  have hcore := decides_coreRows hc e.normalForm.loc hterms none
  have hgroups := decides_alternateGroups hc halternatives
  rw [hnormal.fitsTrigger_iff]
  simp only [trigger, normalize_eq_normalForm hc h]
  rw [← normalForm]
  by_cases hone : (conjuncts e.normalForm).countP isOr ≤ 1
  · obtain ⟨⟨core, found⟩, hok, hrows, hfound⟩ := hcore.accepts (by simpa using hone)
    have hfound : found.getD [] = alternatives e.normalForm := hfound
    rw [hok]
    simp only [hfound, hone, true_and]
    refine ⟨fun h => ?_, fun h => ?_⟩
    · obtain ⟨groups, hok, hall⟩ := hgroups.accepts h
      exact ⟨⟨core, groups⟩, by rw [hok], hrows, hall⟩
    · obtain ⟨f, hf, hkind⟩ := hgroups.refuses h
      exact ⟨f, by rw [hf], hkind⟩
  · obtain ⟨f, hf, hkind⟩ := hcore.refuses (by simpa using hone)
    rw [hf]
    exact ⟨fun h => absurd h.1 hone, fun _ => ⟨f, rfl, hkind⟩⟩

/-- **An achievement's condition is accepted exactly if its shape allows it.** A condition that
joins atoms becomes a trigger if and only if its normal form is an atom, a disjunction of clauses,
or a conjunction of atoms with at most one such disjunction. The core then has the rows of the terms
beside the disjunction and the alternates have those of its operands; otherwise a disjunction is
refused. -/
theorem trigger_fits (hc : ∀ b, functions.get? (Function.constantName b) = some (.constant b))
    {e : Expr} (h : JoinsAtoms functions e) :
    ((∃ t, trigger functions e = .ok t) ↔ FitsTrigger functions e.normalForm) ∧
      (∀ t, trigger functions e = .ok t → IsSplit functions e.normalForm t) ∧
      (¬FitsTrigger functions e.normalForm →
        ∃ f, trigger functions e = .error (.fault f) ∧ f.cause.kind = .misplacedOr) := by
  have hdecides := h.decides_trigger hc
  have hfits : (∃ t, trigger functions e = .ok t) → FitsTrigger functions e.normalForm := by
    rintro ⟨t, ht⟩
    by_contra hnot
    obtain ⟨f, hf, -⟩ := hdecides.refuses hnot
    rw [ht] at hf
    cases hf
  refine ⟨⟨hfits, fun h => ?_⟩, fun t ht => ?_, hdecides.refuses⟩
  · obtain ⟨t, ht, -⟩ := hdecides.accepts h
    exact ⟨t, ht⟩
  · obtain ⟨t', ht', hsplit⟩ := hdecides.accepts (hfits ⟨t, ht⟩)
    rw [ht] at ht'
    exact Except.ok.inj ht' ▸ hsplit

/-- A negated conjunction beside other terms, where it becomes the alternates, and below a
disjunction, where it is refused. -/
theorem trigger_fits_negated :
    let low : Expr := .compare .lt (.call "byte" [.integer 1 none] none) (.integer 5 none) none
    let seven : Expr := .compare .eq (.integer 7 none) (.call "word" [.integer 2 none] none) none
    let never : Expr := .call "always_false" [] none
    let either : Expr := .not (.logic .and [seven, .not low none] none) none
    let beside : Expr := .logic .and [never, .logic .and [low, either] none] none
    let below : Expr := .logic .or [low, .logic .and [never, either] none] none
    (JoinsAtoms .initial beside ∧ JoinsAtoms .initial below) ∧
      (∃ t, trigger .initial beside = .ok t) ∧
      ∃ f, trigger .initial below = .error (.fault f) ∧ f.cause.kind = .misplacedOr := by
  intro low seven never either beside below
  have hc : ∀ b, FunctionTable.initial.get? (Function.constantName b) = some (.constant b) := by
    rintro (_ | _) <;> rfl
  have atom {r : Relation} {a b : Expr} {rows : Group}
      (h : comparisonRows .initial r a b none = .ok rows) : IsAtom .initial (.compare r a b none) :=
    ⟨rows, .comparison h⟩
  have hlow : IsAtom .initial low := atom rfl
  have hseven : IsAtom .initial seven := atom rfl
  have hdifferent : IsAtom .initial seven.opposed := hseven.opposed
  have hnever : IsAtom .initial never := ⟨_, .constant false none⟩
  have both {op : Connective} {e e' : Expr} (h : JoinsAtoms .initial e)
      (h' : JoinsAtoms .initial e') : JoinsAtoms .initial (.logic op [e, e'] none) :=
    .logic op (by simp [h, h']) none
  have heither : JoinsAtoms .initial either := .not (both (.atom hseven) (.not (.atom hlow) _)) _
  have hbeside : JoinsAtoms .initial beside := both (.atom hnever) (both (.atom hlow) heither)
  have hbelow : JoinsAtoms .initial below := both (.atom hlow) (both (.atom hnever) heither)
  have hfits : FitsTrigger .initial beside.normalForm := by
    have hnormal : beside.normalForm =
        .logic .and [never, low, .logic .or [seven.opposed, low] none] none := rfl
    rw [hnormal]
    refine .conjunction ?_ (by decide) _
    rintro t (_ | ⟨_, _ | ⟨_, _ | ⟨_, ⟨⟩⟩⟩⟩)
    · exact .inl hnever
    · exact .inl hlow
    · refine .inr ⟨_, _, rfl, ?_⟩
      rintro a (_ | ⟨_, _ | ⟨_, ⟨⟩⟩⟩)
      exacts [.atom hdifferent, .atom hlow]
  have hnot : ¬FitsTrigger .initial below.normalForm := by
    have hnormal : below.normalForm =
        .logic .or [low, .logic .and [never, .logic .or [seven.opposed, low] none] none] none := rfl
    rw [hnormal]
    intro h
    cases h with
    | atom h => exact not_isAtom_logic _ _ _ h
    | disjunction hes l =>
      have hclause := hes (.logic .and [never, .logic .or [seven.opposed, low] none] none) (by simp)
      exact not_isAtom_logic _ _ _ (isClause_iff.1 hclause (.logic .or [seven.opposed, low] none)
        (by simp [conjuncts, Expr.operandsOf]))
  exact ⟨⟨hbeside, hbelow⟩, (trigger_fits hc hbeside).1.2 hfits, (trigger_fits hc hbelow).2.2 hnot⟩

end Compile

end AchievementLang

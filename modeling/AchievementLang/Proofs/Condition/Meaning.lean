import AchievementLang.Compile.Trigger
import AchievementLang.Proofs.Condition.Comparison

/-!
# Compilation keeps the meaning of triggers

Where the trigger of a condition compiles, it holds in exactly the memories in which the condition
holds (`holds_trigger`). Conjunctions become the rows of one group (`means_conditionRows`), the one
disjunction at the top becomes the alternates (`means_coreRows`), and negations have been pushed
down before (`truth_normalize`), which stays inside the class of conditions `Expr.IsTrigger`.
-/

namespace AchievementLang.Compile

open Wire AchievementLang.Expr

variable {functions : FunctionTable} {m : Memory}

/-! ## Normal forms -/

theorem operandsOf_cases (op : Connective) (e : Expr) :
    e.operandsOf op = [e] ∨ ∃ es l, e = .logic op es l ∧ e.operandsOf op = es := by
  cases e with
  | logic op' es l =>
    by_cases h : op' = op
    · exact .inr ⟨es, l, by rw [h], by rw [Expr.operandsOf, if_pos h]⟩
    · exact .inl (by rw [Expr.operandsOf, if_neg h])
  | _ => exact .inl rfl

theorem normalizeOperands_eq_flatMap (negated : Bool) (op : Connective) (es : List Expr) :
    normalizeOperands (some functions) negated op es =
      es.flatMap fun e => (normalize (some functions) negated e).operandsOf op := by
  induction es with
  | nil => rfl
  | cons e rest ih => rw [normalizeOperands, ih, List.flatMap_cons]

namespace IsTrigger

theorem mem_operandsOf {op : Connective} {e t : Expr} (h : IsTrigger functions e)
    (ht : t ∈ e.operandsOf op) : IsTrigger functions t := by
  obtain he | ⟨es, l, rfl, he⟩ := operandsOf_cases op e
  · rw [he, List.mem_singleton] at ht
    exact ht ▸ h
  · rw [he] at ht
    cases h with
    | logic _ _ hes => exact hes t ht

theorem operandsOf_ne_nil {op : Connective} {e : Expr} (h : IsTrigger functions e) :
    e.operandsOf op ≠ [] := by
  obtain he | ⟨es, l, rfl, he⟩ := operandsOf_cases op e
  · simp [he]
  · rw [he]
    cases h with
    | logic _ hne => exact hne

/-- The normal form of a condition is built from comparisons and constant conditions too. -/
theorem normalize (hc : ∀ b, functions.get? (Function.constantName b) = some (.constant b))
    {e : Expr} (h : IsTrigger functions e) (negated : Bool) :
    IsTrigger functions (Compile.normalize (some functions) negated e) := by
  induction h generalizing negated with
  | compare r ha hb l =>
    cases negated
    · exact .compare r ha hb l
    · exact .compare r.opposite ha hb l
  | @constant name holds h l =>
    cases negated
    · exact .constant h l
    · simp only [Compile.normalize, negateAtom, Option.bind_some, oppositeName?, h, if_true]
      exact .constant (hc (!holds)) l
  | not h l ih => exact ih (!negated)
  | @logic op es hne hes l ih =>
    rw [Compile.normalize, normalizeOperands_eq_flatMap]
    refine .logic _ ?_ (fun t ht => ?_) l
    · obtain ⟨e, rest, rfl⟩ := List.exists_cons_of_ne_nil hne
      rw [List.flatMap_cons]
      exact fun h => operandsOf_ne_nil (ih e (by simp) negated) (List.append_eq_nil_iff.1 h).1
    · obtain ⟨e, he, ht⟩ := List.mem_flatMap.1 ht
      exact mem_operandsOf (ih e he negated) ht

end IsTrigger

/-! ## Conjunctions -/

theorem means_conjunctionRows {negated : Bool} {holds : Expr → Bool} {es : List Expr}
    {rows : Group} (hes : ∀ e ∈ es, ∀ rows, conditionRows functions negated e = .ok rows →
      Group.Means m rows (holds e))
    (h : conjunctionRows functions negated es = .ok rows) :
    Group.Means m rows (Connective.and.joins (es.map holds)) := by
  induction es generalizing rows with
  | nil =>
    cases h
    exact Group.means_nil
  | cons e rest ih =>
    simp only [conjunctionRows] at h
    split at h
    · cases h
    next here hhere =>
      split at h
      · cases h
      next more hmore =>
        cases h
        exact (hes e (by simp) here hhere).append (ih (fun e he => hes e (by simp [he])) hmore)

/-- **The rows of a condition hold exactly when the condition does**, and the rows of its negation
exactly when it does not. -/
theorem means_conditionRows
    (hc : ∀ b, functions.get? (Function.constantName b) = some (.constant b)) {e : Expr}
    (he : IsTrigger functions e) {negated : Bool} {rows : Group}
    (h : conditionRows functions negated e = .ok rows) :
    Group.Means m rows (e.holdsIn functions m ^^ negated) := by
  induction he generalizing negated rows with
  | compare r ha hb l =>
    rw [conditionRows] at h
    have means := means_comparisonRows (m := m) ha hb h
    rw [holdsIn_compare]
    cases negated
    · simpa using means
    · simpa [Relation.holds_opposite] using means
  | @constant name holds hname l =>
    have hholds : (Expr.call name [] l).holdsIn functions m = holds := truth_constant _ _ hname
    rw [hholds]
    cases negated
    · simp only [conditionRows, hname, Bool.false_eq_true, if_false] at h
      cases h
      simpa using means_constantRow holds
    · simp only [conditionRows, oppositeName?, hname, constantCallRows, hc, if_true] at h
      cases h
      simpa using means_constantRow (!holds)
  | not he l ih =>
    rw [conditionRows] at h
    have means := ih h
    rw [holdsIn_not]
    cases negated <;> simpa using means
  | @logic op es hne hes l ih =>
    rw [conditionRows] at h
    split at h
    next hop =>
      have means := means_conjunctionRows (fun e he rows => ih e he) h
      rw [holdsIn_logic, ← Connective.joins_polarized, hop, List.map_map]
      exact means
    · cases h

/-! ## The core and the alternates -/

/-- The condition that remains of the one disjunction, if there is any. -/
def alternativeHolds (functions : FunctionTable) (m : Memory) : Option (List Expr) → Bool
  | none => true
  | some es => Connective.or.joins (es.map (holdsIn functions m))

/-- The operands of the disjunction are conditions, and there are some. -/
def IsAlternative (functions : FunctionTable) (alternative : Option (List Expr)) : Prop :=
  ∀ es ∈ alternative, es ≠ [] ∧ ∀ e ∈ es, IsTrigger functions e

/-- Among terms, the core and the alternative that is found hold together exactly if the terms and
the alternative of earlier terms do. -/
theorem means_coreRows
    (hc : ∀ b, functions.get? (Function.constantName b) = some (.constant b))
    {outer : Option Loc} {terms : List Expr} {alternative found : Option (List Expr)}
    {rows : Group} (hterms : ∀ e ∈ terms, IsTrigger functions e)
    (halt : IsAlternative functions alternative)
    (h : coreRows functions outer alternative terms = .ok (rows, found)) :
    IsAlternative functions found ∧ ∃ b, Group.Means m rows b ∧
      (b && alternativeHolds functions m found) =
        (Connective.and.joins (terms.map (holdsIn functions m)) &&
          alternativeHolds functions m alternative) := by
  induction terms generalizing alternative rows with
  | nil =>
    cases h
    exact ⟨halt, true, Group.means_nil, rfl⟩
  | cons e rest ih =>
    have hrest : ∀ e ∈ rest, IsTrigger functions e := fun e he => hterms e (by simp [he])
    rw [List.map_cons, Connective.joins_cons]
    unfold coreRows at h
    split at h
    · next heq => cases heq
    next es l rest' heq =>
      cases heq
      split at h
      · cases h
      next hnone =>
        have hes : IsAlternative functions (some es) := by
          rintro _ ⟨⟩
          cases hterms (.logic .or es l) (by simp) with
          | logic _ hne hes => exact ⟨hne, hes⟩
        obtain ⟨hfound, b, hb, e⟩ := ih hrest hes h
        refine ⟨hfound, b, hb, e.trans ?_⟩
        simp [alternativeHolds, holdsIn_logic, Connective.joins, Bool.and_comm]
    next e' rest' hor heq =>
      cases heq
      split at h
      · cases h
      next here hhere =>
        split at h
        · cases h
        next more found' hmore =>
          cases h
          obtain ⟨hfound, b, hb, e'⟩ := ih hrest halt hmore
          have means := means_conditionRows (m := m) hc (hterms e (by simp)) hhere
          refine ⟨hfound, _, means.append hb, ?_⟩
          rw [Bool.and_assoc, e', ← Bool.and_assoc]
          simp [Connective.joins]

theorem holds_alternateGroups
    (hc : ∀ b, functions.get? (Function.constantName b) = some (.constant b)) {es : List Expr}
    {groups : List Group} (hes : ∀ e ∈ es, IsTrigger functions e)
    (h : alternateGroups functions es = .ok groups) :
    groups.map (Group.holds m) = es.map (holdsIn functions m) := by
  induction es generalizing groups with
  | nil => cases h; rfl
  | cons e rest ih =>
    simp only [alternateGroups] at h
    split at h
    · cases h
    next rows hrows =>
      split at h
      · cases h
      next more hmore =>
        cases h
        have means := means_conditionRows (m := m) hc (hes e (by simp)) hrows
        rw [List.map_cons, List.map_cons, ih (fun e he => hes e (by simp [he])) hmore,
          means.holds, Bool.xor_false]

/-- **The trigger of a condition holds exactly when the condition does.** Whatever memory holds,
the groups that a condition compiles to are true in it if and only if the condition is. -/
theorem holds_trigger
    (hc : ∀ b, functions.get? (Function.constantName b) = some (.constant b)) {e : Expr}
    (he : IsTrigger functions e) {t : Trigger} (h : trigger functions e = .ok t) (m : Memory) :
    t.holds m = e.holdsIn functions m := by
  have hnormal := IsTrigger.normalize hc he false
  have htruth : (normalize (some functions) false e).holdsIn functions m =
      e.holdsIn functions m := by
    simpa [holdsIn] using truth_normalize hc false e
  simp only [trigger] at h
  split at h
  · cases h
  next core found hcore =>
    split at h
    · cases h
    next groups hgroups =>
      cases h
      obtain ⟨hfound, b, hb, hsplit⟩ := means_coreRows (m := m) hc
        (fun t => IsTrigger.mem_operandsOf hnormal) (by simp [IsAlternative]) hcore
      have hjoin : Connective.and.joins ((conjuncts (normalize (some functions) false e)).map
          (holdsIn functions m)) = e.holdsIn functions m :=
        (joins_operandsOf .and _).trans htruth
      rw [← conjuncts, hjoin, alternativeHolds, Bool.and_true] at hsplit
      rw [← hsplit, Trigger.holds, hb.holds]
      cases found with
      | none =>
        cases hgroups
        rfl
      | some es =>
        obtain ⟨hne, hes⟩ := hfound es rfl
        have hmap := holds_alternateGroups (m := m) hc hes hgroups
        have hnonempty : groups.isEmpty = false := by
          cases groups with
          | nil => exact absurd (List.map_eq_nil_iff.1 hmap.symm) hne
          | cons => rfl
        rw [hnonempty, Bool.false_or, alternativeHolds, ← hmap, Connective.joins, List.any_map]
        rfl

/-- A negated disjunction whose comparison changes sides and moves its constant, beside a
disjunction that becomes the alternates. -/
theorem holds_trigger_exchanged :
    let byte (n : Int) : Expr := .call "byte" [.integer n none] none
    let e : Expr := .logic .and
      [.not (.logic .or
        [.compare .lt (.integer 5 none)
          (.math .add (.math .sub (byte 16) (.call "prev" [byte 17] none) none)
            (.integer 3 none) none) none,
         .call "always_false" [] none] none) none,
       .logic .or
        [.compare .eq (byte 1) (.integer 1 none) none,
         .not (.compare .ne (.integer 2 none) (byte 2) none) none] none] none
    let t : Trigger :=
      ⟨[{ left := .previous .byte ⟨17, by decide⟩, flag := .subSource },
        { left := .memory .byte ⟨16, by decide⟩, operator := some .le,
          right := .literal ⟨2, by decide⟩ },
        constantRow true],
       [[{ left := .memory .byte ⟨1, by decide⟩, operator := some .eq,
           right := .literal ⟨1, by decide⟩ }],
        [{ left := .memory .byte ⟨2, by decide⟩, operator := some .eq,
           right := .literal ⟨2, by decide⟩ }]]⟩
    IsTrigger .initial e ∧ trigger .initial e = .ok t ∧
      ∀ m : Memory, t.holds m = e.holdsIn .initial m := by
  intro byte e t
  have hbyte (n : Int) : IsLinear .initial (byte n) := .operand (.accessor (s := .byte) rfl n _ _)
  have hprev : IsLinear .initial (.call "prev" [byte 17] none) :=
    .operand (.prev (s := .byte) rfl rfl 17 _ _ _)
  have hleft : IsTrigger .initial (.compare .lt (.integer 5 none)
      (.math .add (.math .sub (byte 16) (.call "prev" [byte 17] none) none)
        (.integer 3 none) none) none) :=
    .compare .lt (.integer 5 _) (.add (.sub (hbyte 16) hprev _) (.integer 3 _) _) _
  have hright : IsTrigger .initial (.not (.compare .ne (.integer 2 none) (byte 2) none) none) :=
    .not (.compare .ne (.integer 2 _) (hbyte 2) _) _
  have hfalse : FunctionTable.initial.get? "always_false" = some (.constant false) := rfl
  have he : IsTrigger .initial e := by
    refine .logic .and (by simp) ?_ _
    rintro t (_ | ⟨_, _ | ⟨_, ⟨⟩⟩⟩)
    · refine .not (.logic .or (by simp) ?_ _) _
      rintro t (_ | ⟨_, _ | ⟨_, ⟨⟩⟩⟩)
      exacts [hleft, .constant hfalse _]
    · refine .logic .or (by simp) ?_ _
      rintro t (_ | ⟨_, _ | ⟨_, ⟨⟩⟩⟩)
      exacts [.compare .eq (hbyte 1) (.integer 1 _) _, hright]
  exact ⟨he, rfl, fun m => holds_trigger (by rintro (_ | _) <;> rfl) he rfl m⟩

end AchievementLang.Compile

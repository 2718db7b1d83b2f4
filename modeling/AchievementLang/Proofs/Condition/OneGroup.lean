import AchievementLang.Compile.Trigger
import AchievementLang.Proofs.Condition.Meaning

/-!
# Conditions of one group

The conditions of leaderboards become one group of rows, those of achievements may have alternates
beside it. A condition that has no alternates becomes the same rows either way, and one that has
alternates is no condition of one group (`conditionText_trigger`).

The rows of a condition are found without its normal form, but they are the rows of the normal form
(`agrees_normalize`): merging conjunctions does not change the order of rows. The normal form is
split at the top (`coreRows_eq_ok_iff`), and as connectives join several operands there, a
disjunction among its terms has several alternatives.
-/

namespace AchievementLang

mutual

/-- Every connective joins several conditions, below negations and other connectives. -/
def Expr.JoinsSeveral : Expr → Prop
  | .not e _ => e.JoinsSeveral
  | .logic _ es _ => 2 ≤ es.length ∧ JoinSeveral es
  | _ => True

/-- Every connective in the conditions joins several. -/
def Expr.JoinSeveral : List Expr → Prop
  | [] => True
  | e :: rest => e.JoinsSeveral ∧ JoinSeveral rest

end

theorem Expr.joinSeveral_iff (es : List Expr) : JoinSeveral es ↔ ∀ e ∈ es, e.JoinsSeveral := by
  induction es with
  | nil => simp [JoinSeveral]
  | cons e rest ih => rw [JoinSeveral, ih, List.forall_mem_cons]

namespace Compile

open Wire AchievementLang.Expr

variable {functions : FunctionTable}

/-! ## Rows one after the other -/

/-- The rows of two conditions, one after the other. -/
def followedBy (left right : Except Failure Group) : Except Failure Group :=
  match left with
  | .error f => .error f
  | .ok rows =>
    match right with
    | .error f => .error f
    | .ok more => .ok (rows ++ more)

theorem followedBy_nil (r : Except Failure Group) : followedBy r (.ok []) = r := by
  cases r <;> simp [followedBy]

theorem followedBy_assoc (r r' r'' : Except Failure Group) :
    followedBy (followedBy r r') r'' = followedBy r (followedBy r' r'') := by
  cases r <;> cases r' <;> cases r'' <;> simp [followedBy]

theorem conjunctionRows_cons (negated : Bool) (e : Expr) (rest : List Expr) :
    conjunctionRows functions negated (e :: rest) =
      followedBy (conditionRows functions negated e) (conjunctionRows functions negated rest) := rfl

theorem conjunctionRows_append (negated : Bool) (es es' : List Expr) :
    conjunctionRows functions negated (es ++ es') =
      followedBy (conjunctionRows functions negated es)
        (conjunctionRows functions negated es') := by
  induction es with
  | nil => cases h : conjunctionRows functions negated es' <;> simp [followedBy, conjunctionRows, h]
  | cons e rest ih =>
    rw [List.cons_append, conjunctionRows_cons, ih, conjunctionRows_cons, followedBy_assoc]

/-- The operands that a condition contributes to a conjunction have its rows. -/
theorem conjunctionRows_conjuncts (e : Expr) :
    conjunctionRows functions false (conjuncts e) = conditionRows functions false e := by
  obtain h | ⟨es, l, rfl, h⟩ := operandsOf_cases .and e
  · rw [conjuncts, h, conjunctionRows_cons]
    exact followedBy_nil _
  · rw [conjuncts, h, conditionRows]
    rfl

/-! ## The rows of the normal form -/

/-- The same rows or the same failure, unless the first breaks down, where the second fails too. -/
def Agrees (r r' : Except Failure Group) : Prop :=
  r = r' ∨ (∃ b, r = .error (.breakdown b)) ∧ ∃ f, r' = .error f

namespace Agrees

variable {r r' s s' : Except Failure Group}

theorem refl (r : Except Failure Group) : Agrees r r := .inl rfl

theorem followedBy (h : Agrees r r') (h' : Agrees s s') :
    Agrees (followedBy r s) (followedBy r' s') := by
  obtain rfl | ⟨⟨b, rfl⟩, f, rfl⟩ := h
  · cases r with
    | error f => exact refl _
    | ok rows =>
      obtain rfl | ⟨⟨b, rfl⟩, f, rfl⟩ := h'
      · exact refl _
      · exact .inr ⟨⟨b, rfl⟩, f, rfl⟩
  · exact .inr ⟨⟨b, rfl⟩, f, rfl⟩

/-- What is neither a breakdown nor another failure than expected is the same on both sides. -/
theorem eq_ok_iff (h : Agrees r r') {rows : Group} : r = .ok rows ↔ r' = .ok rows := by
  obtain rfl | ⟨⟨b, rfl⟩, f, rfl⟩ := h <;> simp

theorem eq_fault (h : Agrees r r') {f : Fault} (hr : r = .error (.fault f)) :
    r' = .error (.fault f) := by
  obtain rfl | ⟨⟨b, rfl⟩, -⟩ := h
  · exact hr
  · cases hr

end Agrees

/-- A call of a constant condition's opposite. If its name denotes something else now, it has no
rows. -/
theorem agrees_constantCall (name : String) (loc : Option Loc) :
    Agrees (conditionRows functions false (.call name [] loc))
      (constantCallRows functions name loc) := by
  simp only [conditionRows, constantCallRows, Bool.false_eq_true, if_false]
  cases h : functions.get? name with
  | none => exact .refl _
  | some f =>
    cases f with
    | constant holds => exact .refl _
    | _ => simp [Agrees, Function.isCondition, lastRows]

/-- The negation of a call is the opposite call, if there is one. -/
theorem agrees_negateAtom_call (name : String) (args : List Expr) (l : Option Loc) :
    Agrees (conditionRows functions false (negateAtom (some functions) (.call name args l)))
      (conditionRows functions true (.call name args l)) := by
  simp only [negateAtom, Option.bind_some]
  cases hname : oppositeName? functions name with
  | none => exact .inl (by simp [conditionRows])
  | some opposite =>
    simp only [conditionRows, if_true, hname]
    exact agrees_constantCall opposite l

mutual

/-- **The rows of the normal form** of a condition, or of its negation, are the rows of the
condition. -/
theorem agrees_normalize (negated : Bool) (e : Expr) :
    Agrees (conditionRows functions false (normalize (some functions) negated e))
      (conditionRows functions negated e) := by
  cases e with
  | not e l => exact agrees_normalize (!negated) e
  | logic op es l =>
    rw [normalize, conditionRows, conditionRows]
    cases polarized negated op with
    | and => exact agrees_normalizeOperands negated es
    | or => exact .refl _
  | call name args l =>
    cases negated
    · exact .refl _
    · exact agrees_negateAtom_call name args l
  | _ => cases negated <;> exact .refl _

theorem agrees_normalizeOperands (negated : Bool) (es : List Expr) :
    Agrees (conjunctionRows functions false (normalizeOperands (some functions) negated .and es))
      (conjunctionRows functions negated es) := by
  cases es with
  | nil => exact .refl _
  | cons e rest =>
    rw [normalizeOperands, conjunctionRows_append, conjunctionRows_cons]
    refine Agrees.followedBy ?_ (agrees_normalizeOperands negated rest)
    rw [← conjuncts, conjunctionRows_conjuncts]
    exact agrees_normalize negated e

end

/-! ## Connectives with several operands -/

theorem JoinsSeveral.mem {op : Connective} {e t : Expr} (h : e.JoinsSeveral)
    (ht : t ∈ e.operandsOf op) : t.JoinsSeveral := by
  obtain he | ⟨es, l, rfl, he⟩ := operandsOf_cases op e
  · rw [he, List.mem_singleton] at ht
    exact ht ▸ h
  · rw [he] at ht
    exact (joinSeveral_iff es).1 h.2 t ht

theorem JoinsSeveral.one_le {e : Expr} (h : e.JoinsSeveral) (op : Connective) :
    1 ≤ (e.operandsOf op).length := by
  obtain he | ⟨es, l, rfl, he⟩ := operandsOf_cases op e
  · simp [he]
  · rw [he]
    exact Nat.le_of_succ_le h.1

theorem joinsSeveral_negateAtom (functions : FunctionTable) {e : Expr} (h : e.JoinsSeveral) :
    (negateAtom (some functions) e).JoinsSeveral := by
  cases e with
  | compare => trivial
  | call name args l =>
    simp only [negateAtom, Option.bind_some]
    split <;> trivial
  | _ => exact h

mutual

/-- Merging conditions of one connective takes no operand away. -/
theorem joinsSeveral_normalize (negated : Bool) {e : Expr} (h : e.JoinsSeveral) :
    (normalize (some functions) negated e).JoinsSeveral := by
  cases e with
  | not e l => exact joinsSeveral_normalize _ (e := e) h
  | logic op es l =>
    obtain ⟨hlength, hes⟩ := h
    obtain ⟨hle, hall⟩ := joinSeveral_normalizeOperands negated (polarized negated op) hes
    exact ⟨hlength.trans hle, (joinSeveral_iff _).2 hall⟩
  | _ =>
    cases negated
    · exact h
    · exact joinsSeveral_negateAtom functions h

theorem joinSeveral_normalizeOperands (negated : Bool) (op : Connective) {es : List Expr}
    (h : JoinSeveral es) :
    es.length ≤ (normalizeOperands (some functions) negated op es).length ∧
      ∀ t ∈ normalizeOperands (some functions) negated op es, t.JoinsSeveral := by
  cases es with
  | nil => simp [normalizeOperands]
  | cons e rest =>
    obtain ⟨he, hrest⟩ := h
    have hhead := joinsSeveral_normalize negated he
    obtain ⟨hle, hall⟩ := joinSeveral_normalizeOperands negated op hrest
    rw [normalizeOperands]
    refine ⟨?_, List.forall_mem_append.2 ⟨fun t => JoinsSeveral.mem hhead, hall⟩⟩
    have hone := JoinsSeveral.one_le hhead op
    simp only [List.length_append, List.length_cons]
    omega

end

/-! ## Splitting at the top -/

/-- Once there is an alternative there is no other. -/
theorem coreRows_some {outer : Option Loc} {es ts : List Expr} {rows : Group}
    {found : Option (List Expr)} (h : coreRows functions outer (some es) ts = .ok (rows, found)) :
    found = some es := by
  induction ts generalizing rows with
  | nil =>
    cases h
    rfl
  | cons t rest ih =>
    unfold coreRows at h
    split at h
    next heq => cases heq
    next => cases h
    next heq =>
      cases heq
      split at h
      · cases h
      split at h
      · cases h
      next hmore =>
        cases h
        exact ih hmore

/-- Terms without an alternative have the rows of their conjunction. -/
theorem coreRows_eq_ok_iff {outer : Option Loc} {ts : List Expr} {rows : Group} :
    coreRows functions outer none ts = .ok (rows, none) ↔
      conjunctionRows functions false ts = .ok rows := by
  induction ts generalizing rows with
  | nil => simp [coreRows, conjunctionRows]
  | cons t rest ih =>
    rw [conjunctionRows_cons]
    unfold coreRows
    split
    next heq => cases heq
    next es l rest' heq =>
      cases heq
      have hne : coreRows functions outer (some es) rest ≠ .ok (rows, none) := by
        intro h
        cases coreRows_some h
      simp [hne, conditionRows, polarized, followedBy]
    next t' rest' hor heq =>
      cases heq
      cases hhere : conditionRows functions false t with
      | error f => simp [followedBy]
      | ok here =>
        simp only [followedBy]
        constructor
        · intro h
          split at h
          · cases h
          next hmore =>
            cases h
            rw [ih.1 hmore]
        · intro h
          split at h
          · cases h
          next more hmore =>
            cases h
            rw [ih.2 hmore]

/-- Terms with an alternative have no conjunction: a disjunction is in its way. -/
theorem conjunctionRows_of_coreRows {outer : Option Loc} {es ts : List Expr} {rows : Group}
    (h : coreRows functions outer none ts = .ok (rows, some es)) :
    ∃ l, .logic .or es l ∈ ts ∧
      conjunctionRows functions false ts = .error (.at? .orInCondition l) := by
  induction ts generalizing rows with
  | nil => cases h
  | cons t rest ih =>
    rw [conjunctionRows_cons]
    unfold coreRows at h
    split at h
    next heq => cases heq
    next es' l rest' heq =>
      cases heq
      cases coreRows_some h
      exact ⟨l, by simp, by simp [conditionRows, polarized, followedBy]⟩
    next heq =>
      cases heq
      split at h
      · cases h
      next here hhere =>
        split at h
        · cases h
        next more found hmore =>
          cases h
          obtain ⟨l, hmem, herror⟩ := ih hmore
          exact ⟨l, List.mem_cons_of_mem _ hmem, by simp [hhere, herror, followedBy]⟩

theorem length_alternateGroups {es : List Expr} {groups : List Group}
    (h : alternateGroups functions es = .ok groups) : groups.length = es.length := by
  induction es generalizing groups with
  | nil =>
    cases h
    rfl
  | cons e rest ih =>
    simp only [alternateGroups] at h
    split at h
    · cases h
    split at h
    · cases h
    next hmore =>
      cases h
      rw [List.length_cons, List.length_cons, ih hmore]

/-! ## On its own and as a trigger -/

theorem conditionText_eq_ok_iff {e : Expr} {s : String} :
    conditionText functions e = .ok s ↔
      ∃ rows, conditionRows functions false e = .ok rows ∧ Group.wire rows = s := by
  rw [conditionText]
  cases conditionRows functions false e <;> simp [Except.map]

theorem trigger_eq_ok_iff {e : Expr} {t : Trigger} :
    trigger functions e = .ok t ↔
      ∃ alternative,
        coreRows functions (normalize (some functions) false e).loc none
          (conjuncts (normalize (some functions) false e)) = .ok (t.core, alternative) ∧
        alternateGroups functions (alternative.getD []) = .ok t.alternates := by
  simp only [trigger]
  constructor
  · intro h
    split at h
    · cases h
    next core alternative hcore =>
      split at h
      · cases h
      next groups hgroups =>
        cases h
        exact ⟨alternative, hcore, hgroups⟩
  · rintro ⟨alternative, hcore, hgroups⟩
    rw [hcore]
    dsimp only
    rw [hgroups]

theorem wire_eq_core {t : Trigger} (h : t.alternates = []) : t.wire = Group.wire t.core := by
  rw [Trigger.wire, h, List.map_nil]
  exact String.append_empty

/-- A condition that becomes a trigger with an alternative is refused on its own, and there are
several alternatives. -/
theorem misplacedOr_of_coreRows {e : Expr} (he : e.JoinsSeveral) {outer : Option Loc}
    {es : List Expr} {rows : Group}
    (h : coreRows functions outer none (conjuncts (normalize (some functions) false e)) =
      .ok (rows, some es)) :
    2 ≤ es.length ∧
      ∃ f, conditionText functions e = .error (.fault f) ∧ f.cause.kind = .misplacedOr := by
  obtain ⟨l, hmem, herror⟩ := conjunctionRows_of_coreRows h
  rw [conjunctionRows_conjuncts] at herror
  refine ⟨(JoinsSeveral.mem (joinsSeveral_normalize _ he) hmem).1, ⟨.orInCondition, l⟩, ?_, rfl⟩
  rw [conditionText, (agrees_normalize false e).eq_fault herror]
  rfl

/-- **A condition is the same on its own and as a trigger.** Its text is `s` exactly if it becomes a
trigger without alternates that is `s` on the wire. Where a condition becomes a trigger with
alternates there are several of them, and on its own the condition is refused for a disjunction. -/
theorem conditionText_trigger {e : Expr} (he : e.JoinsSeveral) :
    (∀ s, conditionText functions e = .ok s ↔
      ∃ t, trigger functions e = .ok t ∧ t.alternates = [] ∧ t.wire = s) ∧
    ∀ t, trigger functions e = .ok t → t.alternates ≠ [] →
      2 ≤ t.alternates.length ∧
        ∃ f, conditionText functions e = .error (.fault f) ∧ f.cause.kind = .misplacedOr := by
  have hrows : ∀ rows, conditionRows functions false e = .ok rows ↔
      conjunctionRows functions false (conjuncts (normalize (some functions) false e)) =
        .ok rows := by
    intro rows
    rw [conjunctionRows_conjuncts, (agrees_normalize false e).eq_ok_iff]
  refine ⟨fun s => ⟨fun hs => ?_, ?_⟩, fun t ht halternates => ?_⟩
  · obtain ⟨rows, hok, rfl⟩ := conditionText_eq_ok_iff.1 hs
    refine ⟨⟨rows, []⟩, trigger_eq_ok_iff.2 ⟨none, ?_, rfl⟩, rfl, wire_eq_core rfl⟩
    exact coreRows_eq_ok_iff.2 ((hrows rows).1 hok)
  · rintro ⟨t, ht, halternates, rfl⟩
    obtain ⟨alternative, hcore, hgroups⟩ := trigger_eq_ok_iff.1 ht
    cases alternative with
    | none =>
      have hok := (hrows t.core).2 (coreRows_eq_ok_iff.1 hcore)
      exact conditionText_eq_ok_iff.2 ⟨t.core, hok, (wire_eq_core halternates).symm⟩
    | some es =>
      have hlength : t.alternates.length = es.length := length_alternateGroups hgroups
      have hseveral := (misplacedOr_of_coreRows he hcore).1
      rw [← hlength, halternates] at hseveral
      cases hseveral
  · obtain ⟨alternative, hcore, hgroups⟩ := trigger_eq_ok_iff.1 ht
    cases alternative with
    | none =>
      exact absurd (Except.ok.inj hgroups).symm halternates
    | some es =>
      rw [length_alternateGroups hgroups]
      exact misplacedOr_of_coreRows he hcore

/-- A disjunction, negated beside a condition of one hit, and as it is. -/
theorem conditionText_trigger_negated :
    let once : Expr := .call "once" [.compare .eq (.call "byte" [.integer 16 none] none)
      (.integer 3 none) none] none
    let either : Expr := .logic .or [.compare .lt (.call "word" [.integer 17 none] none)
      (.integer 5 none) none, .call "always_false" [] none] none
    let one : Expr := .logic .and [once, .not either none] none
    let several : Expr := .logic .and [once, either] none
    (one.JoinsSeveral ∧ several.JoinsSeveral) ∧
      (∃ t, trigger .initial one = .ok t ∧ t.alternates = [] ∧
        t.wire = "0xH000010=3.1._0x 000011>=5_1=1") ∧
      ∃ f, conditionText .initial several = .error (.fault f) ∧ f.cause.kind = .misplacedOr := by
  intro once either one several
  have hone : one.JoinsSeveral := by
    simp [one, once, either, Expr.JoinsSeveral, Expr.JoinSeveral]
  have hseveral : several.JoinsSeveral := by
    simp [several, once, either, Expr.JoinsSeveral, Expr.JoinSeveral]
  refine ⟨⟨hone, hseveral⟩, ((conditionText_trigger hone).1 _).1 rfl, ?_⟩
  obtain ⟨t, ht, halternates⟩ : ∃ t, trigger .initial several = .ok t ∧ t.alternates ≠ [] :=
    ⟨_, rfl, by simp⟩
  exact ((conditionText_trigger hseveral).2 t ht halternates).2

end Compile

end AchievementLang

import AchievementLang.Compile.Trigger
import AchievementLang.Compile.Value
import AchievementLang.Proofs.Eval.Table
import AchievementLang.Proofs.Wire.Value

/-!
# How compilation breaks down

Compilation of a value of evaluation fails with an error of the script, except for two reasons: an
operand is the previous value of a memory read whose accessor the script has declared anew since
(`Expr.HasStale`), or a multiplier is too large to be written (`Compile.HasLarge`).
-/

namespace AchievementLang

/-- The previous value of a memory read occurs whose accessor is a declared function by now. -/
inductive Expr.HasStale (t : FunctionTable) : Expr → Prop
  | prev {s : Wire.Size} {d : Declaration} (h : t.get? s.name = some (.declared d)) (e : Expr)
      (l l' : Option Loc) : HasStale t (.call "prev" [.call s.name [e] l] l')
  | arg {name : String} {args : List Expr} {e : Expr} (he : e ∈ args) (h : HasStale t e)
      (l : Option Loc) : HasStale t (.call name args l)
  | left {r : Relation} {a b : Expr} (h : HasStale t a) (l : Option Loc) :
      HasStale t (.compare r a b l)
  | right {r : Relation} {a b : Expr} (h : HasStale t b) (l : Option Loc) :
      HasStale t (.compare r a b l)
  | mathLeft {op : Operator} {a b : Expr} (h : HasStale t a) (l : Option Loc) :
      HasStale t (.math op a b l)
  | mathRight {op : Operator} {a b : Expr} (h : HasStale t b) (l : Option Loc) :
      HasStale t (.math op a b l)
  | not {e : Expr} (h : HasStale t e) (l : Option Loc) : HasStale t (.not e l)
  | operand {op : Connective} {es : List Expr} {e : Expr} (he : e ∈ es) (h : HasStale t e)
      (l : Option Loc) : HasStale t (.logic op es l)

namespace Compile

open AchievementLang.Expr

variable {t : FunctionTable} {e a b : Expr} {f : Failure} {loc : Option Loc}

/-- The failure is an error of the script, or there is a stale operand. -/
def Excused (t : FunctionTable) (e : Expr) (f : Failure) : Prop :=
  (∃ g, f = .fault g) ∨ (f = .breakdown .staleCall ∧ e.HasStale t)

theorem excused_at (cause : Cause) (loc : Option Loc) : Excused t e (.at? cause loc) :=
  .inl ⟨_, rfl⟩

theorem Excused.mono (h : Excused t a f) (hab : a.HasStale t → b.HasStale t) : Excused t b f :=
  h.imp_right fun h => ⟨h.1, hab h.2⟩

/-! ## Operands -/

/-- A call that denotes an operand becomes no field only if the operand is stale. -/
theorem callField_eq_error (ht : t.Sound) {name : String} {args : List Expr}
    (he : IsReduced (.call name args loc)) (hname : denotesOperand t name = true)
    (h : callField t (.call name args loc) = .error f) : Excused t (.call name args loc) f := by
  unfold denotesOperand at hname
  split at hname
  next g hg =>
    obtain rfl := ht.named hg
    cases g with
    | accessor s =>
      obtain ⟨w, l, rfl⟩ := he.leaves (f := .accessor s) rfl
      simp [callField, hg, memoryAt] at h
    | prev =>
      obtain ⟨s, w, l, l', rfl⟩ := he.leaves (f := .prev) rfl
      simp only [callField, hg] at h
      obtain hs | ⟨d, hs⟩ := ht.get? (f := .accessor s) rfl
      · rw [Function.name] at hs
        simp [hs, memoryAt] at h
        cases h
      · rw [Function.name] at hs
        simp only [hs] at h
        cases h
        exact .inr ⟨rfl, .prev hs _ _ _⟩
    | _ => cases hname
  next => cases hname

theorem operandField_eq_error (ht : t.Sound) (he : e.IsReduced)
    (h : operandField t e = .error f) : Excused t e f := by
  unfold operandField at h
  split at h
  · split at h
    · cases h
    · cases h
      exact excused_at _ _
  · split at h
    next hname => exact callField_eq_error ht he hname h
    · cases h
      exact excused_at _ _
  · cases h
    exact excused_at _ _

theorem operandFields_eq_error (ht : t.Sound) {es : List Expr} (hes : ∀ e ∈ es, e.IsReduced)
    (h : operandFields t es = .error f) : ∃ e ∈ es, Excused t e f := by
  induction es with
  | nil => cases h
  | cons e rest ih =>
    rw [operandFields] at h
    split at h
    next g hg =>
      cases h
      exact ⟨e, by simp, operandField_eq_error ht (hes e (by simp)) hg⟩
    · split at h
      next g hg =>
        cases h
        obtain ⟨e', he', hf⟩ := ih (fun e he => hes e (by simp [he])) hg
        exact ⟨e', by simp [he'], hf⟩
      · cases h

/-! ## Comparisons -/

/-- The value is a part of another one, or has no other stale operands than that. -/
def Within (t : FunctionTable) (x e : Expr) : Prop := x.IsReduced ∧ (x.HasStale t → e.HasStale t)

theorem Within.trans {c : Expr} (h : Within t a b) (h' : b.HasStale t → c.HasStale t) :
    Within t a c :=
  ⟨h.1, fun hstale => h' (h.2 hstale)⟩

/-- The summands of a side are parts of it, and if it has none it is in error. -/
def Sums (t : FunctionTable) (e : Expr) : Except Failure (List Summand) → Prop
  | .error f => ∃ g, f = .fault g
  | .ok ss => ∀ s ∈ ss, Within t s.expr e

theorem sums_summands (added : Bool) (he : e.IsReduced) : Sums t e (summands added e) := by
  have append {op : Operator} {a b : Expr} {l : Option Loc} {left right : List Summand}
      (ha : Sums t a (.ok left)) (hb : Sums t b (.ok right)) :
      Sums t (.math op a b l) (.ok (left ++ right)) := by
    intro s hs
    obtain hs | hs := List.mem_append.1 hs
    · exact (ha s hs).trans fun h => .mathLeft h l
    · exact (hb s hs).trans fun h => .mathRight h l
  fun_induction summands added e with
  | case1 added a b l g hg ih =>
    cases he with | math op ha hb => exact (hg ▸ ih ha : Sums t _ (.error g))
  | case2 added a b l left hleft g hg _ ih =>
    cases he with | math op ha hb => exact (hg ▸ ih hb : Sums t _ (.error g))
  | case3 added a b l left hleft right hright iha ihb =>
    cases he with | math op ha hb => exact append (hleft ▸ iha ha) (hright ▸ ihb hb)
  | case4 added a b l g hg ih =>
    cases he with | math op ha hb => exact (hg ▸ ih ha : Sums t _ (.error g))
  | case5 added a b l left hleft g hg _ ih =>
    cases he with | math op ha hb => exact (hg ▸ ih hb : Sums t _ (.error g))
  | case6 added a b l left hleft right hright iha ihb =>
    cases he with | math op ha hb => exact append (hleft ▸ iha ha) (hright ▸ ihb hb)
  | case7 => exact ⟨_, rfl⟩
  | case8 added e =>
    intro s hs
    rw [List.mem_singleton.1 hs]
    exact ⟨he, id⟩

theorem sumRows_eq_error (ht : t.Sound) {op : Relation} {ss : List Summand} {right : Wire.Field}
    (hss : ∀ s ∈ ss, Within t s.expr e) (h : sumRows t op ss right loc = .error f) :
    Excused t e f := by
  have operands {added : Bool} {g : Failure}
      (hg : operandFields t (operandsOf added ss) = .error g) : Excused t e g := by
    have hmem : ∀ x ∈ operandsOf added ss, Within t x e := by
      intro x hx
      obtain ⟨s, hs, rfl⟩ := List.mem_map.1 hx
      exact hss s (List.mem_of_mem_filter hs)
    obtain ⟨x, hx, hf⟩ := operandFields_eq_error ht (fun x hx => (hmem x hx).1) hg
    exact hf.mono (hmem x hx).2
  unfold sumRows at h
  split at h
  · cases h
    exact excused_at _ _
  split at h
  next g hg =>
    cases h
    exact operands hg
  split at h
  next g hg =>
    cases h
    exact operands hg
  split at h
  · cases h
  · cases h
    exact excused_at _ _

theorem orderedRows_eq_error (ht : t.Sound) {op : Relation} (ha : Within t a e)
    (hb : Within t b e) (h : orderedRows t op a b loc = .error f) : Excused t e f := by
  have hsums := sums_summands (t := t) true ha.1
  unfold orderedRows at h
  split at h
  next g hg =>
    cases h
    rw [hg] at hsums
    exact .inl hsums
  next ss hss =>
    rw [hss] at hsums
    have hss' : ∀ s ∈ ss, Within t s.expr e := fun s hs => (hsums s hs).trans ha.2
    split at h
    · dsimp only at h
      split at h
      · cases h
      split at h
      · cases h
        exact excused_at _ _
      split at h
      next g hg =>
        cases h
        refine (operandField_eq_error ht (.integer _ _) hg).mono nofun
      next => exact sumRows_eq_error ht hss' h
    · split at h
      · cases h
        exact excused_at _ _
      split at h
      next g hg =>
        cases h
        exact (operandField_eq_error ht hb.1 hg).mono hb.2
      next => exact sumRows_eq_error ht hss' h

theorem comparisonRows_eq_error (ht : t.Sound) {op : Relation} (ha : Within t a e)
    (hb : Within t b e) (h : comparisonRows t op a b loc = .error f) : Excused t e f := by
  unfold comparisonRows at h
  split at h
  · exact orderedRows_eq_error ht hb ha h
  · exact orderedRows_eq_error ht ha hb h

/-! ## Conditions -/

theorem modifyRows_eq_error {g : Function} {args : List Expr} {rows : Wire.Group}
    (hargs : g.Leaves args) (h : modifyRows g args rows loc = .error f) : ∃ c, f = .fault c := by
  unfold modifyRows at h
  split at h
  · cases h
    exact ⟨_, rfl⟩
  split at h
  · cases h
    exact ⟨_, rfl⟩
  split at h
  next hrow =>
    unfold modifyRow at hrow
    split at hrow
    · cases hrow
    · obtain ⟨n, l, e, -, -, rfl⟩ := hargs
      cases hrow
    · cases hrow
    · cases hrow
    · cases hrow
  · cases h

theorem constantCallRows_eq_error {name : String} (h : constantCallRows t name loc = .error f) :
    ∃ c, f = .fault c := by
  unfold constantCallRows at h
  split at h
  · cases h
  · cases h
    exact ⟨_, rfl⟩

/-- What a condition function gets are values. -/
theorem leaves_condition {g : Function} {args : List Expr} (hg : g.isCondition = true)
    (hconstant : ∀ holds, g ≠ .constant holds) (h : g.Leaves args) :
    args ≠ [] ∧ ∀ e ∈ args, e.IsReduced := by
  cases g with
  | once | never | pausing =>
    obtain ⟨e, he, rfl⟩ := h
    simpa using he
  | repeated =>
    obtain ⟨n, l, e, -, he, rfl⟩ := h
    simpa using ⟨IsReduced.integer n l, he⟩
  | constant holds => exact (hconstant holds rfl).elim
  | _ => cases hg

mutual

theorem conditionRows_eq_error (ht : t.Sound) (negated : Bool) (e : Expr) (he : e.IsReduced)
    (h : conditionRows t negated e = .error f) : Excused t e f := by
  cases e with
  | not e l =>
    rw [conditionRows] at h
    cases he with
    | not he => exact (conditionRows_eq_error ht (!negated) e he h).mono fun h => .not h l
  | logic op es l =>
    rw [conditionRows] at h
    split at h
    · cases he with
      | logic op hes =>
        obtain ⟨x, hx, hf⟩ := conjunctionRows_eq_error ht negated es hes h
        exact hf.mono fun h => .operand hx h l
    · cases h
      exact excused_at _ _
  | compare r a b l =>
    rw [conditionRows] at h
    cases he with
    | compare r ha hb =>
      exact comparisonRows_eq_error ht ⟨ha, fun h => .left h l⟩ ⟨hb, fun h => .right h l⟩ h
  | call name args l =>
    rw [conditionRows] at h
    split at h
    · split at h
      · exact .inl (constantCallRows_eq_error h)
      · cases h
        exact excused_at _ _
    · split at h
      · cases h
      next g hconstant hg =>
        split at h
        next hcondition =>
          obtain rfl := ht.named hg
          have hargs := he.leaves (f := g) (by cases g <;> first | rfl | cases hcondition)
          obtain ⟨hne, hes⟩ := leaves_condition hcondition hconstant hargs
          split at h
          next c hrows =>
            cases h
            obtain ⟨x, hx, hf⟩ := lastRows_eq_error ht args hne hes hrows
            exact hf.mono fun h => .arg hx h l
          · exact .inl (modifyRows_eq_error hargs h)
        · cases h
          exact excused_at _ _
      · cases h
        exact excused_at _ _
  | _ =>
    simp only [conditionRows] at h
    split at h
    all_goals
      cases h
      exact excused_at _ _

theorem conjunctionRows_eq_error (ht : t.Sound) (negated : Bool) (es : List Expr)
    (hes : ∀ e ∈ es, e.IsReduced) (h : conjunctionRows t negated es = .error f) :
    ∃ e ∈ es, Excused t e f := by
  cases es with
  | nil => cases h
  | cons e rest =>
    rw [conjunctionRows] at h
    split at h
    next g hg =>
      cases h
      exact ⟨e, by simp, conditionRows_eq_error ht negated e (hes e (by simp)) hg⟩
    · split at h
      next g hg =>
        cases h
        obtain ⟨x, hx, hf⟩ :=
          conjunctionRows_eq_error ht negated rest (fun e he => hes e (by simp [he])) hg
        exact ⟨x, by simp [hx], hf⟩
      · cases h

theorem lastRows_eq_error (ht : t.Sound) (es : List Expr) (hne : es ≠ [])
    (hes : ∀ e ∈ es, e.IsReduced) (h : lastRows t es = .error f) : ∃ e ∈ es, Excused t e f := by
  match es with
  | [] => exact (hne rfl).elim
  | [e] =>
    rw [lastRows] at h
    split at h
    next g hg =>
      cases h
      exact ⟨e, by simp, conditionRows_eq_error ht false e (hes e (by simp)) hg⟩
    · cases h
  | _ :: e :: rest =>
    rw [lastRows] at h
    obtain ⟨x, hx, hf⟩ :=
      lastRows_eq_error ht (e :: rest) (by simp) (fun e he => hes e (List.mem_cons_of_mem _ he)) h
    exact ⟨x, List.mem_cons_of_mem _ hx, hf⟩

end

/-! ## Triggers -/

theorem within_operandsOf (op : Connective) (he : e.IsReduced) :
    ∀ x ∈ e.operandsOf op, Within t x e := by
  intro x hx
  cases e with
  | logic op' es l =>
    rw [Expr.operandsOf] at hx
    split at hx
    · cases he with
      | logic op hes => exact ⟨hes x hx, fun h => .operand hx h l⟩
    · rw [List.mem_singleton.1 hx]
      exact ⟨he, id⟩
  | _ =>
    rw [List.mem_singleton.1 hx]
    exact ⟨he, id⟩

theorem not_hasStale_nil {name : String} : ¬ HasStale t (.call name [] loc) := by
  intro h
  cases h with
  | arg hx => cases hx

theorem within_negateAtom (he : e.IsReduced) : Within t (negateAtom (some t) e) e := by
  unfold negateAtom
  split
  next r a b l =>
    cases he with
    | compare r ha hb =>
      refine ⟨.compare _ ha hb l, fun h => ?_⟩
      cases h with
      | left h => exact .left h l
      | right h => exact .right h l
  next name args l =>
    split
    next g hg =>
      rw [Option.bind_some, oppositeName?] at hg
      split at hg
      next holds _ =>
        cases hg
        exact ⟨.constant (!holds) l, fun h => (not_hasStale_nil h).elim⟩
      · cases hg
    next =>
      refine ⟨.not he l, fun h => ?_⟩
      cases h with
      | not h => exact h
  next =>
    refine ⟨.not he _, fun h => ?_⟩
    cases h with
    | not h => exact h

mutual

theorem within_normalize (negated : Bool) (e : Expr) (he : e.IsReduced) :
    Within t (normalize (some t) negated e) e := by
  cases e with
  | not e l =>
    rw [normalize]
    cases he with
    | not he => exact (within_normalize (!negated) e he).trans fun h => .not h l
  | logic op es l =>
    rw [normalize]
    cases he with
    | logic op hes =>
      have hall := within_normalizeOperands negated (polarized negated op) es hes
      refine ⟨.logic _ (fun x hx => ?_) l, fun h => ?_⟩
      · obtain ⟨e, -, h⟩ := hall x hx
        exact h.1
      · cases h with
        | operand hx h =>
          obtain ⟨e, he, hwithin⟩ := hall _ hx
          exact .operand he (hwithin.2 h) l
  | _ =>
    rw [normalize]
    · split
      · exact within_negateAtom he
      · exact ⟨he, id⟩
    all_goals simp

theorem within_normalizeOperands (negated : Bool) (op : Connective) (es : List Expr)
    (hes : ∀ e ∈ es, e.IsReduced) :
    ∀ x ∈ normalizeOperands (some t) negated op es, ∃ e ∈ es, Within t x e := by
  intro x hx
  cases es with
  | nil => cases hx
  | cons e rest =>
    rw [normalizeOperands] at hx
    obtain hx | hx := List.mem_append.1 hx
    · have he := within_normalize negated e (hes e (by simp))
      exact ⟨e, by simp, (within_operandsOf op he.1 x hx).trans he.2⟩
    · obtain ⟨e', he', h⟩ := within_normalizeOperands negated op rest
        (fun e he => hes e (by simp [he])) x hx
      exact ⟨e', by simp [he'], h⟩

end

theorem alternateGroups_eq_error (ht : t.Sound) {es : List Expr} (hes : ∀ e ∈ es, e.IsReduced)
    (h : alternateGroups t es = .error f) : ∃ e ∈ es, Excused t e f := by
  induction es with
  | nil => cases h
  | cons e rest ih =>
    rw [alternateGroups] at h
    split at h
    next g hg =>
      cases h
      exact ⟨e, by simp, conditionRows_eq_error ht false e (hes e (by simp)) hg⟩
    · split at h
      next g hg =>
        cases h
        obtain ⟨e', he', hf⟩ := ih (fun e he => hes e (by simp [he])) hg
        exact ⟨e', by simp [he'], hf⟩
      · cases h

/-- The core and the alternatives are compiled from parts of the condition. -/
theorem coreRows_within (ht : t.Sound) (outer : Option Loc) (alternative : Option (List Expr))
    (terms : List Expr) (hterms : ∀ x ∈ terms, Within t x e)
    (halternative : ∀ es ∈ alternative, ∀ x ∈ es, Within t x e) :
    match coreRows t outer alternative terms with
    | .error f => Excused t e f
    | .ok (_, found) => ∀ es ∈ found, ∀ x ∈ es, Within t x e := by
  fun_induction coreRows t outer alternative terms with
  | case1 => exact halternative
  | case2 => exact excused_at _ _
  | case3 es l rest ih =>
    have hor := hterms _ List.mem_cons_self
    refine ih (fun x hx => hterms x (List.mem_cons_of_mem _ hx)) fun es' hes' x hx => ?_
    cases hes'
    exact (within_operandsOf .or hor.1 x (by simpa [Expr.operandsOf])).trans hor.2
  | case4 _ x rest _ g hg =>
    have hx := hterms x List.mem_cons_self
    exact (conditionRows_eq_error ht false x hx.1 hg).mono hx.2
  | case5 _ x rest _ rows hrows g hg ih =>
    simpa only [hg] using ih (fun x hx => hterms x (List.mem_cons_of_mem _ hx)) halternative
  | case6 _ x rest _ rows hrows more found hmore ih =>
    simpa only [hmore] using ih (fun x hx => hterms x (List.mem_cons_of_mem _ hx)) halternative

theorem trigger_eq_error (ht : t.Sound) (he : e.IsReduced) (h : trigger t e = .error f) :
    Excused t e f := by
  have hnormal : Within t (normalize (some t) false e) e := within_normalize false e he
  have hcore := coreRows_within (e := e) ht (normalize (some t) false e).loc none
    (conjuncts (normalize (some t) false e))
    (fun x hx => (within_operandsOf .and hnormal.1 x hx).trans hnormal.2) nofun
  unfold trigger at h
  dsimp only at h
  split at h
  next g hg =>
    cases h
    rwa [hg] at hcore
  next core alternative hok =>
    rw [hok] at hcore
    have hall : ∀ x ∈ alternative.getD [], Within t x e := by
      cases alternative with
      | none => simp
      | some es => exact hcore es rfl
    split at h
    next g hg =>
      cases h
      obtain ⟨x, hx, hf⟩ := alternateGroups_eq_error ht (fun x hx => (hall x hx).1) hg
      exact hf.mono (hall x hx).2
    · cases h

/-! ## Values -/

theorem appendParts_eq_error {left right : Except Failure (List Part)}
    (h : appendParts left right = .error f) : left = .error f ∨ right = .error f := by
  unfold appendParts at h
  split at h
  · exact .inl h
  split at h
  · exact .inr h
  · cases h

theorem parts_eq_error (ht : t.Sound) {k : ℚ} (he : e.IsReduced) (h : parts t k e = .error f) :
    Excused t e f := by
  fun_induction parts t k e with
  | case1 => cases h
  | case2 k a b l iha ihb =>
    cases he with
    | math op ha hb =>
      obtain h | h := appendParts_eq_error h
      · exact (iha ha h).mono fun h => .mathLeft h l
      · exact (ihb hb h).mono fun h => .mathRight h l
  | case3 k a b l iha ihb =>
    cases he with
    | math op ha hb =>
      obtain h | h := appendParts_eq_error h
      · exact (iha ha h).mono fun h => .mathLeft h l
      · exact (ihb hb h).mono fun h => .mathRight h l
  | case4 k l a n l' ih =>
    cases he with | math op ha hb => exact (ih ha h).mono fun h => .mathLeft h l
  | case5 k l n l' b hb ih =>
    cases he with | math op ha hb => exact (ih hb h).mono fun h => .mathRight h l
  | case7 k a l n l' hn ih =>
    cases he with | math op ha hb => exact (ih ha h).mono fun h => .mathLeft h l
  | case11 k name args l hname =>
    cases hf : callField t (.call name args l) with
    | ok g =>
      rw [hf] at h
      cases h
    | error g =>
      rw [hf] at h
      cases h
      exact callField_eq_error ht he hname hf
  | _ =>
    cases h
    exact excused_at _ _

/-- A multiplier in the value is too large to be written. -/
def HasLarge (t : FunctionTable) (e : Expr) : Prop :=
  ∃ terms, valueTerms t e = .ok terms ∧ ∃ x ∈ terms, Wire.IsLarge x.multiplier

theorem valueText_eq_error (ht : t.Sound) (he : e.IsReduced) (h : valueText t e = .error f) :
    Excused t e f ∨ (f = .breakdown .tooLarge ∧ HasLarge t e) := by
  unfold valueText at h
  split at h
  next g hg =>
    cases h
    unfold valueTerms at hg
    cases hparts : parts t 1 e with
    | ok ps =>
      rw [hparts] at hg
      cases hg
    | error g =>
      rw [hparts] at hg
      cases hg
      exact .inl (parts_eq_error ht he hparts)
  next terms hterms =>
    split at h
    · cases h
    next hwire =>
      cases h
      exact .inr ⟨rfl, terms, hterms, Wire.Sum.wire?_eq_none_iff.1 hwire⟩

theorem valueText_of_hasLarge (h : HasLarge t e) :
    valueText t e = .error (.breakdown .tooLarge) := by
  obtain ⟨terms, hterms, hlarge⟩ := h
  simp [valueText, hterms, Wire.Sum.wire?_eq_none_iff.2 hlarge]

end Compile

end AchievementLang

import AchievementLang.Compile.Trigger
import AchievementLang.Compile.Value
import AchievementLang.Proofs.Wire.Trigger
import AchievementLang.Proofs.Wire.Value

/-!
# What compilation emits

Whatever functions there are, the rows that a condition compiles to accumulate memory or compare,
and the last row of a group compares (`isEmitted_conditionRows`). In particular all of them are
well formed and can be read back from the wire. The same goes for the rows of a trigger
(`wellFormed_trigger`) and for the terms of a value (`wellFormed_valueTerms`).
-/

namespace AchievementLang

namespace Wire

/-- The row adds or subtracts memory and says nothing else, or compares two fields, for which it
may be flagged to reset or to pause. -/
def Requirement.IsEmitted (r : Requirement) : Prop :=
  (r.flag.isAccumulator = true ∧ r.left.isMemory = true ∧ r.left.WellFormed ∧
      r.operator = none ∧ r.hits = 0 ∧ r.right = {}) ∨
    ((r.flag = .none ∨ r.flag = .resetIf ∨ r.flag = .pauseIf) ∧ r.left.WellFormed ∧
      r.operator.isSome = true ∧ r.right.WellFormed)

/-- The rows accumulate and compare, and nothing is left accumulated at the end. -/
structure Group.IsEmitted (g : Group) : Prop where
  rows : ∀ r ∈ g, r.IsEmitted
  last : ∀ r ∈ g.getLast?, r.operator.isSome = true

theorem Requirement.IsEmitted.wellFormed {r : Requirement} (h : r.IsEmitted) : r.WellFormed := by
  obtain ⟨hacc, -, hleft, hop, hhits, hright⟩ | ⟨-, hleft, hop, hright⟩ := h
  · exact ⟨hleft, .inr ⟨hop, hacc, hhits, hright⟩⟩
  · exact ⟨hleft, .inl ⟨hop, hright⟩⟩

namespace Group

theorem IsEmitted.wellFormed {g : Group} (h : g.IsEmitted) : Group.WellFormed g :=
  fun r hr => (h.rows r hr).wellFormed

theorem isEmitted_nil : IsEmitted [] := ⟨by simp, by simp⟩

theorem IsEmitted.append {g g' : Group} (h : g.IsEmitted) (h' : g'.IsEmitted) :
    (g ++ g').IsEmitted := by
  refine ⟨fun r hr => ?_, fun r hr => ?_⟩
  · rcases List.mem_append.1 hr with hr | hr
    · exact h.rows r hr
    · exact h'.rows r hr
  · rw [List.getLast?_append] at hr
    cases hlast : g'.getLast? with
    | none =>
      rw [hlast] at hr
      exact h.last r hr
    | some last =>
      rw [hlast] at hr
      exact h'.last r (hlast ▸ hr)

end Group

end Wire

namespace Compile

open Wire

variable {functions : FunctionTable}

/-! ## Operands -/

theorem memoryAt_eq_ok {s : Size} {e : Expr} {f : Wire.Field} (h : memoryAt s e = .ok f) :
    ∃ a, f = .memory s a := by
  unfold memoryAt at h
  split at h
  · split at h
    · cases h
      exact ⟨_, rfl⟩
    · cases h
  · cases h

/-- A call that denotes an operand becomes a reference to memory. -/
theorem isMemory_callField {e : Expr} {f : Wire.Field} (h : callField functions e = .ok f) :
    f.isMemory = true ∧ f.WellFormed := by
  induction e using callField.induct functions generalizing f with
  | case1 name arg rest loc size hname =>
    simp only [callField, hname] at h
    obtain ⟨a, rfl⟩ := memoryAt_eq_ok h
    exact ⟨rfl, trivial⟩
  | case2 name arg rest loc hname ih =>
    simp only [callField, hname] at h
    cases harg : callField functions arg with
    | error e =>
      rw [harg] at h
      cases h
    | ok g =>
      rw [harg] at h
      cases h
      obtain ⟨hmem, hg⟩ := ih harg
      obtain ⟨w, rfl⟩ | ⟨s, a, rfl⟩ | ⟨s, a, rfl⟩ := hg.cases
      · cases hmem
      · exact ⟨rfl, trivial⟩
      · exact ⟨rfl, trivial⟩
  | case3 name arg rest loc hacc hprev =>
    unfold callField at h
    split at h
    next size hname => exact (hacc size hname).elim
    next hname => exact (hprev hname).elim
    · cases h
  | case4 e hcall =>
    unfold callField at h
    split at h
    · exact (hcall _ _ _ _ rfl).elim
    · cases h

theorem wellFormed_operandField {e : Expr} {f : Wire.Field}
    (h : operandField functions e = .ok f) : f.WellFormed := by
  unfold operandField at h
  split at h
  · split at h
    · cases h
      trivial
    · cases h
  · split at h
    · exact (isMemory_callField h).2
    · cases h
  · cases h

theorem isMemory_operandField {e : Expr} {f : Wire.Field} (he : e.integer? = none)
    (h : operandField functions e = .ok f) : f.isMemory = true := by
  unfold operandField at h
  split at h
  · cases he
  · split at h
    · exact (isMemory_callField h).1
    · cases h
  · cases h

theorem operandFields_eq_ok {es : List Expr} {fs : List Wire.Field}
    (h : operandFields functions es = .ok fs) :
    List.Forall₂ (fun e f => operandField functions e = .ok f) es fs := by
  induction es generalizing fs with
  | nil =>
    cases h
    exact .nil
  | cons e rest ih =>
    simp only [operandFields] at h
    split at h
    · cases h
    next f hf =>
      split at h
      · cases h
      next more hmore =>
        cases h
        exact .cons hf (ih hmore)

/-- The operands of a side become references to well-formed memory. -/
theorem isMemory_operandFields {added : Bool} {ss : List Summand} {fs : List Wire.Field}
    (h : operandFields functions (operandsOf added ss) = .ok fs) {f : Wire.Field} (hf : f ∈ fs) :
    f.isMemory = true ∧ f.WellFormed := by
  have hall := operandFields_eq_ok h
  obtain ⟨i, hi, rfl⟩ := List.getElem_of_mem hf
  have hi' : i < (operandsOf added ss).length := hall.length_eq ▸ hi
  have hfield := (List.forall₂_iff_get.1 hall).2 i hi' hi
  have hmem : (operandsOf added ss)[i] ∈ operandsOf added ss := List.getElem_mem hi'
  obtain ⟨s, hs, e⟩ := List.mem_map.1 hmem
  have hoperand := (List.mem_filter.1 hs).2
  simp only [Bool.and_eq_true, Summand.isOperand, Option.isNone_iff_eq_none] at hoperand
  rw [e] at hoperand
  exact ⟨isMemory_operandField hoperand.1 hfield, wellFormed_operandField hfield⟩

/-! ## Comparisons -/

theorem isEmitted_constantRow (holds : Bool) : Group.IsEmitted [constantRow holds] := by
  refine ⟨fun r hr => ?_, fun r hr => ?_⟩
  · rw [List.mem_singleton.1 hr]
    exact .inr ⟨.inl rfl, trivial, rfl, trivial⟩
  · cases hr
    rfl

theorem comparingRows_eq_some_iff {op : Relation} {added subtracted : List Wire.Field}
    {right : Wire.Field} {rows : Group} :
    comparingRows op added subtracted right = some rows ↔
      ∃ last ∈ added.getLast?, rows =
        subtracted.map (fun f => { left := f, flag := .subSource }) ++
          added.dropLast.map (fun f => { left := f, flag := .addSource }) ++
          [{ left := last, operator := some op, right := right }] := by
  unfold comparingRows
  split
  next hnone => simp [hnone]
  next last hlast => simp [hlast, eq_comm]

theorem isEmitted_comparingRows {op : Relation} {added subtracted : List Wire.Field}
    {right : Wire.Field} {rows : Group}
    (hadded : ∀ f ∈ added, f.isMemory = true ∧ f.WellFormed)
    (hsubtracted : ∀ f ∈ subtracted, f.isMemory = true ∧ f.WellFormed) (hright : right.WellFormed)
    (h : comparingRows op added subtracted right = some rows) : rows.IsEmitted := by
  obtain ⟨last, hlast, rfl⟩ := comparingRows_eq_some_iff.1 h
  have hlast' := hadded last (List.mem_of_getLast? hlast)
  refine ⟨fun r hr => ?_, fun r hr => ?_⟩
  · simp only [List.mem_append, List.mem_map, List.mem_singleton] at hr
    obtain (⟨f, hf, rfl⟩ | ⟨f, hf, rfl⟩) | rfl := hr
    · exact .inl ⟨rfl, (hsubtracted f hf).1, (hsubtracted f hf).2, rfl, rfl, rfl⟩
    · have hf' := hadded f (List.dropLast_subset added hf)
      exact .inl ⟨rfl, hf'.1, hf'.2, rfl, rfl, rfl⟩
    · exact .inr ⟨.inl rfl, hlast'.2, rfl, hright⟩
  · rw [List.getLast?_append, List.getLast?_singleton, Option.some_or] at hr
    cases hr
    rfl

/-- The rows compare the operands of a side with a field. -/
theorem sumRows_eq_ok_iff {op : Relation} {ss : List Summand} {right : Wire.Field}
    {loc : Option Loc} {rows : Group} :
    sumRows functions op ss right loc = .ok rows ↔
      ∃ added subtracted, operandFields functions (operandsOf true ss) = .ok added ∧
        operandFields functions (operandsOf false ss) = .ok subtracted ∧
        comparingRows op added subtracted right = some rows := by
  unfold sumRows
  constructor
  · intro h
    split at h
    · cases h
    split at h
    · cases h
    next subtracted hsubtracted =>
      split at h
      · cases h
      next added hadded =>
        split at h
        next rows' hrows =>
          cases h
          exact ⟨added, subtracted, hadded, hsubtracted, hrows⟩
        · cases h
  · rintro ⟨added, subtracted, hadded, hsubtracted, hrows⟩
    have hempty : ¬(operandsOf true ss).isEmpty = true := by
      intro hempty
      rw [List.isEmpty_iff.1 hempty] at hadded
      cases hadded
      cases hrows
    rw [if_neg hempty, hsubtracted, hadded]
    dsimp only
    rw [hrows]

/-- The rows are the one of a constant condition, or compare the operands of the left side with a
well-formed field. -/
theorem orderedRows_eq_ok {op : Relation} {left right : Expr} {loc : Option Loc}
    {rows : Group} (h : orderedRows functions op left right loc = .ok rows) :
    (∃ holds, rows = [constantRow holds]) ∨
      ∃ ss field, field.WellFormed ∧ sumRows functions op ss field loc = .ok rows := by
  unfold orderedRows at h
  split at h
  · cases h
  next ss hss =>
    split at h
    · dsimp only at h
      split at h
      · cases h
        exact .inl ⟨_, rfl⟩
      split at h
      · cases h
      split at h
      · cases h
      next field hfield => exact .inr ⟨ss, field, wellFormed_operandField hfield, h⟩
    · split at h
      · cases h
      split at h
      · cases h
      next field hfield => exact .inr ⟨ss, field, wellFormed_operandField hfield, h⟩

/-- **The rows of a comparison** are the one of a constant condition, or compare the sum of memory
operands with a well-formed field. -/
theorem comparisonRows_eq_ok {op : Relation} {left right : Expr} {loc : Option Loc}
    {rows : Group} (h : comparisonRows functions op left right loc = .ok rows) :
    (∃ holds, rows = [constantRow holds]) ∨
      ∃ op' ss field, field.WellFormed ∧ ∃ added subtracted,
        operandFields functions (operandsOf true ss) = .ok added ∧
        operandFields functions (operandsOf false ss) = .ok subtracted ∧
        comparingRows op' added subtracted field = some rows := by
  have ordered {op' : Relation} {left right : Expr}
      (h : orderedRows functions op' left right loc = .ok rows) :
      (∃ holds, rows = [constantRow holds]) ∨
        ∃ ss field, field.WellFormed ∧ ∃ added subtracted,
          operandFields functions (operandsOf true ss) = .ok added ∧
          operandFields functions (operandsOf false ss) = .ok subtracted ∧
          comparingRows op' added subtracted field = some rows :=
    (orderedRows_eq_ok h).imp_right fun ⟨ss, field, hfield, hrows⟩ =>
      ⟨ss, field, hfield, sumRows_eq_ok_iff.1 hrows⟩
  unfold comparisonRows at h
  split at h
  · exact (ordered h).imp_right fun hrows => ⟨_, hrows⟩
  · exact (ordered h).imp_right fun hrows => ⟨_, hrows⟩

theorem isEmitted_comparisonRows {op : Relation} {left right : Expr} {loc : Option Loc}
    {rows : Group} (h : comparisonRows functions op left right loc = .ok rows) :
    rows.IsEmitted := by
  obtain ⟨holds, rfl⟩ | ⟨op', ss, field, hfield, added, subtracted, hadded, hsubtracted, hrows⟩ :=
    comparisonRows_eq_ok h
  · exact isEmitted_constantRow holds
  · exact isEmitted_comparingRows (fun f => isMemory_operandFields hadded)
      (fun f => isMemory_operandFields hsubtracted) hfield hrows

/-! ## Conditions -/

/-- A condition function changes the last row, which compares before and after. -/
theorem isEmitted_modifyRows {f : Function} {args : List Expr} {rows changed : Group}
    {loc : Option Loc} (hrows : rows.IsEmitted) (h : modifyRows f args rows loc = .ok changed) :
    changed.IsEmitted := by
  unfold modifyRows at h
  split at h
  · cases h
  split at h
  · cases h
  next last hlast =>
    split at h
    · cases h
    next row hrow =>
      cases h
      have hop := hrows.last last hlast
      have hlast' := hrows.rows last (List.mem_of_getLast? hlast)
      obtain ⟨-, -, -, hnone, -⟩ | ⟨hflag, hleft, -, hright⟩ := hlast'
      · rw [hnone] at hop
        cases hop
      have hrow' : row.IsEmitted ∧ row.operator.isSome = true := by
        unfold modifyRow at hrow
        split at hrow
        · cases hrow
          exact ⟨.inr ⟨hflag, hleft, hop, hright⟩, hop⟩
        · split at hrow
          · cases hrow
            exact ⟨.inr ⟨hflag, hleft, hop, hright⟩, hop⟩
          · cases hrow
        · cases hrow
          exact ⟨.inr ⟨.inr (.inl rfl), hleft, hop, hright⟩, hop⟩
        · cases hrow
          exact ⟨.inr ⟨.inr (.inr rfl), hleft, hop, hright⟩, hop⟩
        · cases hrow
          exact ⟨.inr ⟨hflag, hleft, hop, hright⟩, hop⟩
      refine ⟨fun r hr => ?_, fun r hr => ?_⟩
      · rcases List.mem_append.1 hr with hr | hr
        · exact hrows.rows r (List.dropLast_subset rows hr)
        · rw [List.mem_singleton.1 hr]
          exact hrow'.1
      · rw [List.getLast?_append, List.getLast?_singleton, Option.some_or] at hr
        cases hr
        exact hrow'.2

theorem isEmitted_constantCallRows {name : String} {loc : Option Loc} {rows : Group}
    (h : constantCallRows functions name loc = .ok rows) : rows.IsEmitted := by
  unfold constantCallRows at h
  split at h
  · cases h
    exact isEmitted_constantRow _
  · cases h

mutual

/-- **The rows of a condition accumulate and compare**, and the last one compares. -/
theorem isEmitted_conditionRows (negated : Bool) (e : Expr) {rows : Group}
    (h : conditionRows functions negated e = .ok rows) : rows.IsEmitted := by
  cases e with
  | not e l =>
    rw [conditionRows] at h
    exact isEmitted_conditionRows (!negated) e h
  | logic op es l =>
    rw [conditionRows] at h
    split at h
    · exact isEmitted_conjunctionRows negated es h
    · cases h
  | compare r a b l =>
    rw [conditionRows] at h
    exact isEmitted_comparisonRows h
  | call name args l =>
    rw [conditionRows] at h
    split at h
    · split at h
      · exact isEmitted_constantCallRows h
      · cases h
    · split at h
      · cases h
        exact isEmitted_constantRow _
      · split at h
        · split at h
          · cases h
          next rows' loc hrows =>
            exact isEmitted_modifyRows (isEmitted_lastRows args hrows) h
        · cases h
      · cases h
  | _ => simp only [conditionRows] at h; split at h <;> cases h

theorem isEmitted_conjunctionRows (negated : Bool) (es : List Expr) {rows : Group}
    (h : conjunctionRows functions negated es = .ok rows) : rows.IsEmitted := by
  cases es with
  | nil =>
    cases h
    exact Group.isEmitted_nil
  | cons e rest =>
    rw [conjunctionRows] at h
    split at h
    · cases h
    next here hhere =>
      split at h
      · cases h
      next more hmore =>
        cases h
        exact (isEmitted_conditionRows negated e hhere).append
          (isEmitted_conjunctionRows negated rest hmore)

theorem isEmitted_lastRows (es : List Expr) {rows : Group} {loc : Option Loc}
    (h : lastRows functions es = .ok (rows, loc)) : rows.IsEmitted := by
  match es with
  | [] => cases h
  | [e] =>
    rw [lastRows] at h
    split at h
    · cases h
    next rows' hrows =>
      cases h
      exact isEmitted_conditionRows false e hrows
  | _ :: e :: rest =>
    rw [lastRows] at h
    exact isEmitted_lastRows (e :: rest) h

end

/-! ## Triggers -/

theorem isEmitted_coreRows {outer : Option Loc} {alternative : Option (List Expr)}
    {es : List Expr} {rows : Group} {found : Option (List Expr)}
    (h : coreRows functions outer alternative es = .ok (rows, found)) : rows.IsEmitted := by
  induction es generalizing alternative rows with
  | nil =>
    cases h
    exact Group.isEmitted_nil
  | cons e rest ih =>
    unfold coreRows at h
    split at h
    next heq => cases heq
    next heq =>
      cases heq
      split at h
      · cases h
      · exact ih h
    next heq =>
      cases heq
      split at h
      · cases h
      next here hhere =>
        split at h
        · cases h
        next more found' hmore =>
          cases h
          exact (isEmitted_conditionRows false e hhere).append (ih hmore)

theorem isEmitted_alternateGroups {es : List Expr} {gs : List Group}
    (h : alternateGroups functions es = .ok gs) : ∀ g ∈ gs, Group.IsEmitted g := by
  induction es generalizing gs with
  | nil =>
    cases h
    simp
  | cons e rest ih =>
    simp only [alternateGroups] at h
    split at h
    · cases h
    next rows hrows =>
      split at h
      · cases h
      next more hmore =>
        cases h
        exact List.forall_mem_cons.2 ⟨isEmitted_conditionRows false e hrows, ih hmore⟩

/-- **A trigger that has been compiled is well formed**, so it can be read back from the wire. -/
theorem wellFormed_trigger {e : Expr} {t : Trigger} (h : trigger functions e = .ok t) :
    t.WellFormed := by
  unfold trigger at h
  dsimp only at h
  split at h
  · cases h
  next core alternative hcore =>
    split at h
    · cases h
    next alternates halternates =>
      cases h
      exact ⟨(isEmitted_coreRows hcore).wellFormed, fun g hg =>
        (isEmitted_alternateGroups halternates g hg).wellFormed⟩

/-! ## Values -/

theorem appendParts_eq_ok {left right : Except Failure (List Part)} {ps : List Part}
    (h : appendParts left right = .ok ps) :
    ∃ qs rs, left = .ok qs ∧ right = .ok rs ∧ ps = qs ++ rs := by
  unfold appendParts at h
  split at h
  · cases h
  split at h
  · cases h
  · cases h
    exact ⟨_, _, rfl, rfl, rfl⟩

/-- The shapes of a value with parts. What holds of numbers and operands, and of a sum, a
difference, a multiple and a quotient if it does of what they are made of, holds of every value that
has parts. -/
theorem parts_induction {motive : ℚ → Expr → List Part → Prop}
    (integer : ∀ k (n : Int) l, motive k (.integer n l) [⟨none, k * n⟩])
    (operand : ∀ k name args l f, callField functions (.call name args l) = .ok f →
      motive k (.call name args l) [⟨some f, k⟩])
    (add : ∀ k a b l ps qs, motive k a ps → motive k b qs →
      motive k (.math .add a b l) (ps ++ qs))
    (sub : ∀ k a b l ps qs, motive k a ps → motive (-k) b qs →
      motive k (.math .sub a b l) (ps ++ qs))
    (mulRight : ∀ k a (n : Int) l l' ps, motive (k * n) a ps →
      motive k (.math .mul a (.integer n l) l') ps)
    (mulLeft : ∀ k (n : Int) l b l' ps, motive (k * n) b ps →
      motive k (.math .mul (.integer n l) b l') ps)
    (div : ∀ k a (n : Int) l l' ps, n ≠ 0 → motive (k / n) a ps →
      motive k (.math .div a (.integer n l) l') ps)
    {k : ℚ} {e : Expr} {ps : List Part} (h : parts functions k e = .ok ps) : motive k e ps := by
  induction k, e using parts.induct functions generalizing ps with
  | case1 k n l =>
    cases h
    exact integer k n l
  | case2 k a b l iha ihb =>
    obtain ⟨qs, rs, hqs, hrs, rfl⟩ := appendParts_eq_ok h
    exact add k a b l qs rs (iha hqs) (ihb hrs)
  | case3 k a b l iha ihb =>
    obtain ⟨qs, rs, hqs, hrs, rfl⟩ := appendParts_eq_ok h
    exact sub k a b l qs rs (iha hqs) (ihb hrs)
  | case4 k l a n l' ih =>
    simp only [parts] at h
    exact mulRight k a n l' l ps (ih h)
  | case5 k l n l' b hb ih =>
    cases b with
    | integer m l'' => exact (hb m l'' rfl).elim
    | _ => exact mulLeft k n l' _ l ps (ih h)
  | case7 k a l n l' hn ih =>
    simp only [parts, if_pos hn] at h
    exact div k a n l' l ps hn (ih h)
  | case8 k a l n l' hn =>
    simp only [parts, if_neg hn] at h
    cases h
  | case11 k name args l hname =>
    simp only [parts, if_pos hname] at h
    cases hf : callField functions (.call name args l) with
    | error e =>
      rw [hf] at h
      cases h
    | ok f =>
      rw [hf] at h
      cases h
      exact operand k name args l f hf
  | case12 k name args l hname =>
    simp only [parts, if_neg hname] at h
    cases h
  | case6 k a b l ha hb =>
    unfold parts at h
    split at h
    · exact (hb _ _ rfl).elim
    · exact (ha _ _ rfl).elim
    · cases h
  | case9 k a b l hb =>
    unfold parts at h
    split at h
    · exact (hb _ _ rfl).elim
    · cases h
  | case10 | case13 | case14 | case15 | case16 => cases h
  | case17 k e hinteger hadd hsub hmul hdiv hmod hcall hor hand hnot hcompare =>
    rw [parts] at h <;> first | assumption | cases h

theorem isMemory_parts {k : ℚ} {e : Expr} {ps : List Part} (h : parts functions k e = .ok ps) :
    ∀ p ∈ ps, ∀ f ∈ p.field, f.isMemory = true ∧ f.WellFormed := by
  have append {ps qs : List Part} (hps : ∀ p ∈ ps, ∀ f ∈ p.field, f.isMemory = true ∧ f.WellFormed)
      (hqs : ∀ p ∈ qs, ∀ f ∈ p.field, f.isMemory = true ∧ f.WellFormed) :
      ∀ p ∈ ps ++ qs, ∀ f ∈ p.field, f.isMemory = true ∧ f.WellFormed := by
    intro p hp
    rcases List.mem_append.1 hp with hp | hp
    exacts [hps p hp, hqs p hp]
  refine parts_induction
    (motive := fun _ _ ps => ∀ p ∈ ps, ∀ f ∈ p.field, f.isMemory = true ∧ f.WellFormed)
    (fun k n l => by simp) (fun k name args l f hf p hp g hg => ?_)
    (fun _ _ _ _ _ _ => append) (fun _ _ _ _ _ _ => append)
    (fun _ _ _ _ _ _ => id) (fun _ _ _ _ _ _ => id) (fun _ _ _ _ _ _ _ => id) h
  rw [List.mem_singleton.1 hp] at hg
  cases hg
  exact isMemory_callField hf

theorem termsOf_ne_nil (ps : List Part) : termsOf ps ≠ [] := by
  unfold termsOf
  dsimp only
  split
  · simp
  next h => exact fun e => h (.inr e)

/-- **The terms of a value**: there is one, and the fields of all of them are well formed. -/
theorem wellFormed_valueTerms {e : Expr} {terms : Wire.Sum}
    (h : valueTerms functions e = .ok terms) : terms ≠ [] ∧ ∀ t ∈ terms, t.WellFormed := by
  unfold valueTerms at h
  cases hps : parts functions 1 e with
  | error f =>
    rw [hps] at h
    cases h
  | ok ps =>
    rw [hps] at h
    cases h
    refine ⟨termsOf_ne_nil ps, fun t ht => ?_⟩
    have hterm : ∀ t ∈ ps.filterMap Part.term?, t.WellFormed := by
      intro t ht f hf
      obtain ⟨p, hp, e⟩ := List.mem_filterMap.1 ht
      obtain ⟨g, hg, rfl⟩ := Option.map_eq_some_iff.1 e
      cases hf
      exact (isMemory_parts hps p hp f hg).2
    unfold termsOf at ht
    dsimp only at ht
    split at ht
    · rcases List.mem_append.1 ht with ht | ht
      · exact hterm t ht
      · rw [List.mem_singleton.1 ht]
        rintro f ⟨⟩
    · exact hterm t ht

theorem valueText_eq_ok {e : Expr} {text : String} (h : valueText functions e = .ok text) :
    ∃ terms, valueTerms functions e = .ok terms ∧ Wire.Sum.wire? terms = some text := by
  unfold valueText at h
  split at h
  · cases h
  next terms hterms =>
    split at h
    next text' htext =>
      cases h
      exact ⟨terms, hterms, htext⟩
    · cases h

end Compile

end AchievementLang

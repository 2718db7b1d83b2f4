import AchievementLang.Proofs.Compile.Rows
import AchievementLang.Proofs.Condition.OneGroup
import AchievementLang.Proofs.Eval.Connectives
import AchievementLang.Proofs.Eval.Run

/-!
# Groups of rows

Every group of rows in what a script declares is orderly (`Script.isOrderly_of_compileText`): rows
that accumulate memory say nothing else, every other row compares, and a group does not end with an
accumulator, which would feed the next comparison of the game. The rows are those of conditions, and
a condition has a row (`Compile.conditionRows_ne_nil`), since the connectives of scripts join
several conditions. So neither alternates nor the conditions of leaderboards are ever empty.
-/

namespace AchievementLang

namespace Wire

/-- Nothing is accumulated where it does not belong. -/
structure Group.IsOrderly (g : Group) : Prop where
  /-- A row that adds or subtracts says nothing else, and it does so with memory. -/
  accumulators : ∀ r ∈ g, r.flag.isAccumulator = true →
    r.operator = none ∧ r.hits = 0 ∧ r.left.isMemory = true
  /-- Any other row compares, and may be flagged to reset or to pause. -/
  comparisons : ∀ r ∈ g, r.flag.isAccumulator = false →
    r.operator.isSome = true ∧ (r.flag = .none ∨ r.flag = .resetIf ∨ r.flag = .pauseIf)
  /-- What refers to memory has a size. -/
  sizes : ∀ r ∈ g, ∀ f ∈ [r.left, r.right], f.isMemory = true → f.size.isSome = true
  /-- Literals and addresses have 32 bits. -/
  values : ∀ r ∈ g, ∀ f ∈ [r.left, r.right], f.value.val < 2 ^ 32
  /-- Nothing is left accumulated at the end. -/
  last : ∀ r ∈ g.getLast?, r.flag.isAccumulator = false

theorem Field.WellFormed.isSome_size {f : Field} (h : f.WellFormed) (hf : f.isMemory = true) :
    f.size.isSome = true := by
  obtain ⟨w, rfl⟩ | ⟨s, a, rfl⟩ | ⟨s, a, rfl⟩ := h.cases
  · cases hf
  · rfl
  · rfl

theorem Requirement.IsEmitted.operator_isSome {r : Requirement} (h : r.IsEmitted) :
    r.operator.isSome = !r.flag.isAccumulator := by
  obtain ⟨hacc, -, -, hop, -⟩ | ⟨hflag, -, hop, -⟩ := h
  · rw [hacc, hop]
    rfl
  · rw [hop]
    obtain hflag | hflag | hflag := hflag <;> rw [hflag] <;> rfl

theorem Group.IsEmitted.isOrderly {g : Group} (h : g.IsEmitted) : g.IsOrderly where
  accumulators r hr hflag := by
    obtain ⟨-, hleft, -, hop, hhits, -⟩ | ⟨hother, -⟩ := h.rows r hr
    · exact ⟨hop, hhits, hleft⟩
    · obtain hother | hother | hother := hother <;> rw [hother] at hflag <;> cases hflag
  comparisons r hr hflag := by
    obtain ⟨hacc, -⟩ | ⟨hother, -, hop, -⟩ := h.rows r hr
    · rw [hflag] at hacc
      cases hacc
    · exact ⟨hop, hother⟩
  sizes r hr := by
    obtain ⟨-, -, hleft, -, -, hright⟩ | ⟨-, hleft, -, hright⟩ := h.rows r hr
    · refine List.forall_mem_cons.2 ⟨hleft.isSome_size, List.forall_mem_singleton.2 fun hf => ?_⟩
      rw [hright] at hf
      cases hf
    · exact List.forall_mem_cons.2
        ⟨hleft.isSome_size, List.forall_mem_singleton.2 hright.isSome_size⟩
  values _ _ f _ := f.value.isLt
  last r hr := by
    have hop := h.last r hr
    rw [(h.rows r (List.mem_of_getLast? hr)).operator_isSome] at hop
    simpa using hop

end Wire

namespace Expr

mutual

theorem JoinsThroughout.joinsSeveral {e : Expr} (h : e.JoinsThroughout) : e.JoinsSeveral := by
  cases e with
  | not e l => exact JoinsThroughout.joinsSeveral (e := e) h
  | logic op es l => exact ⟨h.1, joinSeveral_of_joinThroughout h.2⟩
  | _ => trivial

theorem joinSeveral_of_joinThroughout {es : List Expr} (h : JoinThroughout es) :
    JoinSeveral es := by
  cases es with
  | nil => trivial
  | cons e rest => exact ⟨h.1.joinsSeveral, joinSeveral_of_joinThroughout h.2⟩

end

end Expr

namespace Compile

open Wire AchievementLang.Expr

variable {functions : FunctionTable}

/-! ## Conditions have rows -/

theorem comparisonRows_ne_nil {op : Relation} {left right : Expr} {loc : Option Loc}
    {rows : Group} (h : comparisonRows functions op left right loc = .ok rows) : rows ≠ [] := by
  obtain ⟨holds, rfl⟩ | ⟨op', ss, field, -, added, subtracted, -, -, hrows⟩ :=
    comparisonRows_eq_ok h
  · simp
  · obtain ⟨last, -, rfl⟩ := comparingRows_eq_some_iff.1 hrows
    simp

theorem modifyRows_ne_nil {f : Function} {args : List Expr} {rows changed : Group}
    {loc : Option Loc} (h : modifyRows f args rows loc = .ok changed) : changed ≠ [] := by
  unfold modifyRows at h
  split at h
  · cases h
  split at h
  · cases h
  split at h
  · cases h
  · cases h
    simp

theorem constantCallRows_ne_nil {name : String} {loc : Option Loc} {rows : Group}
    (h : constantCallRows functions name loc = .ok rows) : rows ≠ [] := by
  unfold constantCallRows at h
  split at h
  · cases h
    simp
  · cases h

/-- **A condition has a row**, if its connectives join several conditions. The first of the
conditions that are joined has one already. -/
theorem conditionRows_ne_nil (negated : Bool) (e : Expr) (he : e.JoinsSeveral) {rows : Group}
    (h : conditionRows functions negated e = .ok rows) : rows ≠ [] := by
  match e with
  | .not e l =>
    rw [conditionRows] at h
    exact conditionRows_ne_nil (!negated) e he h
  | .logic op [] l => exact absurd he.1 (by simp)
  | .logic op (e :: rest) l =>
    rw [conditionRows] at h
    split at h
    · rw [conjunctionRows] at h
      split at h
      · cases h
      next here hhere =>
        split at h
        · cases h
        · cases h
          have hne := conditionRows_ne_nil negated e he.2.1 hhere
          exact List.append_ne_nil_of_left_ne_nil hne _
    · cases h
  | .compare r a b l =>
    rw [conditionRows] at h
    exact comparisonRows_ne_nil h
  | .call name args l =>
    rw [conditionRows] at h
    split at h
    · split at h
      · exact constantCallRows_ne_nil h
      · cases h
    · split at h
      · cases h
        simp
      · split at h
        · split at h
          · cases h
          · exact modifyRows_ne_nil h
        · cases h
      · cases h
  | .string .. | .integer .. | .var .. | .math .. | .array .. | .assign .. | .ret ..
  | .declare .. =>
    simp only [conditionRows] at h
    split at h <;> cases h

theorem alternateGroups_ne_nil {es : List Expr} (hes : ∀ e ∈ es, e.JoinsSeveral)
    {groups : List Group} (h : alternateGroups functions es = .ok groups) :
    ∀ g ∈ groups, g ≠ [] := by
  induction es generalizing groups with
  | nil =>
    cases h
    simp
  | cons e rest ih =>
    obtain ⟨he, hrest⟩ := List.forall_mem_cons.1 hes
    simp only [alternateGroups] at h
    split at h
    · cases h
    next rows hrows =>
      split at h
      · cases h
      next more hmore =>
        cases h
        exact List.forall_mem_cons.2 ⟨conditionRows_ne_nil false e he hrows, ih hrest hmore⟩

/-- **The groups of a trigger are orderly**, and no alternate is empty. -/
theorem isOrderly_trigger {e : Expr} (he : e.JoinsSeveral) {t : Trigger}
    (h : trigger functions e = .ok t) :
    t.core.IsOrderly ∧ ∀ g ∈ t.alternates, g.IsOrderly ∧ g ≠ [] := by
  obtain ⟨alternative, hcore, hgroups⟩ := trigger_eq_ok_iff.1 h
  refine ⟨(isEmitted_coreRows hcore).isOrderly, fun g hg =>
    ⟨(isEmitted_alternateGroups hgroups g hg).isOrderly, ?_⟩⟩
  refine alternateGroups_ne_nil (fun a ha => ?_) hgroups g hg
  cases alternative with
  | none => cases ha
  | some es =>
    -- The alternatives are the operands of a disjunction among the terms of the normal form.
    obtain ⟨l, hmem, -⟩ := conjunctionRows_of_coreRows hcore
    have hor := JoinsSeveral.mem (joinsSeveral_normalize false he) hmem
    exact (joinSeveral_iff es).1 hor.2 a ha

/-- **The text of a condition** is that of an orderly group that is not empty. -/
theorem isOrderly_conditionText {e : Expr} (he : e.JoinsSeveral) {text : String}
    (h : conditionText functions e = .ok text) :
    ∃ rows : Group, readTrigger text = .ok ⟨rows, []⟩ ∧ rows.wire = text ∧ rows.IsOrderly ∧
      rows ≠ [] := by
  obtain ⟨rows, hrows, rfl⟩ := conditionText_eq_ok_iff.1 h
  have hemitted := isEmitted_conditionRows false e hrows
  refine ⟨rows, ?_, rfl, hemitted.isOrderly, conditionRows_ne_nil false e he hrows⟩
  rw [← wire_eq_core (t := ⟨rows, []⟩) rfl]
  exact readTrigger_wire _ ⟨hemitted.wellFormed, by simp⟩

end Compile

namespace Script

open Wire

/-- **No accumulator is dangling or misplaced** in what a script declares. Every group of a trigger
is orderly, and so are the rows of the conditions of a leaderboard, which are read back from their
texts. Alternates and the conditions of leaderboards have rows. -/
theorem isOrderly_of_compileText (limit : Int) (text : String) (c : Compilation)
    (h : compileText limit text = .ok c) :
    (∀ a ∈ c.achievements,
      a.trigger.core.IsOrderly ∧ ∀ g ∈ a.trigger.alternates, g.IsOrderly ∧ g ≠ []) ∧
    ∀ l ∈ c.leaderboards,
      ∀ s ∈ [l.definition.start, l.definition.cancel, l.definition.submit],
        ∃ rows : Group, readTrigger s = .ok ⟨rows, []⟩ ∧ rows.wire = s ∧ rows.IsOrderly ∧
          rows ≠ [] := by
  obtain ⟨hachievements, hleaderboards⟩ := joins_of_compileText h
  refine ⟨fun a ha => ?_, fun l hl s hs => ?_⟩
  · obtain ⟨t, e, he, htrigger⟩ := hachievements a ha
    exact Compile.isOrderly_trigger he.joinsSeveral htrigger
  · obtain ⟨t, e, he, htext⟩ := hleaderboards l hl s hs
    exact Compile.isOrderly_conditionText he.joinsSeveral htext

/-- An achievement with a sum in its core and with two alternates, and a leaderboard. -/
def accumulatingScript : String :=
  "achievement(\"a\", \"\", 5, byte(1) - prev(byte(2)) > 4 &&
    (byte(3) == 7 || never(byte(8) + byte(9) == 1)))
leaderboard(\"l\", \"\", byte(1) + byte(2) == 3, always_false(), always_true(), 6)"

set_option maxRecDepth 1024 in
theorem isOrderly_of_compileText_accumulatingScript :
    ∃ c, compileText defaultCallDepth accumulatingScript = .ok c ∧
      c.achievements.map (·.trigger.wire) =
        ["B:d0xH000002_0xH000001>4S0xH000003=7SA:0xH000008_R:0xH000009=1"] ∧
      c.leaderboards.map (·.definition.start) = ["A:0xH000001_0xH000002=3"] ∧
      (∀ a ∈ c.achievements,
        a.trigger.core.IsOrderly ∧ ∀ g ∈ a.trigger.alternates, g.IsOrderly ∧ g ≠ []) ∧
      ∀ l ∈ c.leaderboards,
        ∀ s ∈ [l.definition.start, l.definition.cancel, l.definition.submit],
          ∃ rows : Group, readTrigger s = .ok ⟨rows, []⟩ ∧ rows.wire = s ∧ rows.IsOrderly ∧
            rows ≠ [] := by
  have hchars : accumulatingScript.toList = _ := String.toList_ofList
  obtain ⟨c, hc, hwires⟩ := exists_compileText_eq_ok defaultCallDepth accumulatingScript
    (fun c => (c.achievements.map (·.trigger.wire), c.leaderboards.map (·.definition.start)))
    (a := (["B:d0xH000002_0xH000001>4S0xH000003=7SA:0xH000008_R:0xH000009=1"],
      ["A:0xH000001_0xH000002=3"]))
    (by
      rw [compileText, parse, hchars]
      decide +kernel)
  exact ⟨c, hc, congrArg Prod.fst hwires, congrArg Prod.snd hwires,
    isOrderly_of_compileText _ _ c hc⟩

end Script

end AchievementLang

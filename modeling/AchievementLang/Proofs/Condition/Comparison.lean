import AchievementLang.Compile.Comparison
import AchievementLang.Proofs.Condition.Memory
import Mathlib.Algebra.BigOperators.Group.List.Basic
import Mathlib.Tactic.Ring

/-!
# The meaning of a comparison

The rows of a comparison hold exactly when the comparison does, whatever memory holds
(`means_comparisonRows`): the sides may change places, constants move to the right, and the
subtracted operands are accumulated ahead of the added ones.

Rows stand among the rows of other conditions, so their meaning is stated for any rows behind
them (`Wire.Group.Means`).
-/

namespace AchievementLang

theorem Relation.holds_sub (op : Relation) (a b k : Int) :
    op.holds a (b - k) = op.holds (a + k) b := by
  cases op <;> simp only [holds, decide_eq_decide] <;> omega

namespace Wire

variable {m : Memory}

namespace Group

/-- The rows hold exactly if `b` does, and leave no total behind for the rows after them. -/
def Means (m : Memory) (g : Group) (b : Bool) : Prop :=
  ∀ rest, holdsFrom m 0 (g ++ rest) = (b && holdsFrom m 0 rest)

theorem Means.holds {g : Group} {b : Bool} (h : Means m g b) : Group.holds m g = b := by
  simpa [Group.holds, holdsFrom] using h []

theorem means_nil : Means m [] true := fun _ => by simp

theorem Means.append {g g' : Group} {b b' : Bool} (h : Means m g b) (h' : Means m g' b') :
    Means m (g ++ g') (b && b') := fun rest => by
  rw [List.append_assoc, h, h', Bool.and_assoc]

theorem holdsFrom_subSource (total : Int) (fs : List Field) (rest : Group) :
    holdsFrom m total (fs.map (fun f => { left := f, flag := .subSource }) ++ rest) =
      holdsFrom m (total - (fs.map (Field.number m)).sum) rest := by
  induction fs generalizing total with
  | nil => simp
  | cons f fs ih =>
    simp only [List.map_cons, List.cons_append, holdsFrom, ih, List.sum_cons, sub_sub]

theorem holdsFrom_addSource (total : Int) (fs : List Field) (rest : Group) :
    holdsFrom m total (fs.map (fun f => { left := f, flag := .addSource }) ++ rest) =
      holdsFrom m (total + (fs.map (Field.number m)).sum) rest := by
  induction fs generalizing total with
  | nil => simp
  | cons f fs ih =>
    simp only [List.map_cons, List.cons_append, holdsFrom, ih, List.sum_cons, add_assoc]

end Group

end Wire

namespace Compile

open Wire AchievementLang.Expr

variable {functions : FunctionTable} {m : Memory}

/-! ## Rows -/

theorem means_constantRow (b : Bool) : Group.Means m [constantRow b] b := fun rest => by
  cases b <;> rfl

/-- The rows of a comparison compare the difference of the sums. -/
theorem means_comparingRows {op : Relation} {added subtracted : List Wire.Field}
    {right : Wire.Field} {rows : Group}
    (h : comparingRows op added subtracted right = some rows) :
    Group.Means m rows (op.holds ((added.map (Wire.Field.number m)).sum -
      (subtracted.map (Wire.Field.number m)).sum) (right.number m)) := fun rest => by
  simp only [comparingRows] at h
  split at h
  · cases h
  next last hlast =>
    cases h
    have hsum : (added.map (Wire.Field.number m)).sum =
        (added.dropLast.map (Wire.Field.number m)).sum + last.number m := by
      conv_lhs => rw [← List.dropLast_append_getLast? last hlast]
      simp
    rw [List.append_assoc, List.append_assoc, Group.holdsFrom_subSource,
      Group.holdsFrom_addSource, hsum]
    simp only [List.cons_append, List.nil_append, Group.holdsFrom, Requirement.compares]
    congr 2
    ring

/-! ## Operands -/

theorem number_memoryAt {s : Size} {e : Expr} {f : Wire.Field} (h : memoryAt s e = .ok f) :
    ∃ n l, e = .integer n l ∧ f.number m = m false s n ∧
      (previousOf f).number m = m true s n := by
  cases e with
  | integer n l =>
    simp only [memoryAt] at h
    split at h
    next w hw =>
      cases h
      exact ⟨n, l, rfl, by simp [Field.number, Field.memory, Word.val_of_ofInt? hw],
        by simp [Field.number, Field.memory, previousOf, Word.val_of_ofInt? hw]⟩
    · cases h
  | _ => cases h

/-- A memory read stands for the field that it becomes. -/
theorem number_callField {e : Expr} {f : Wire.Field} (he : IsOperand functions e)
    (h : callField functions e = .ok f) : f.number m = e.amount functions m := by
  cases he with
  | accessor hs address l l' =>
    simp only [callField, hs] at h
    obtain ⟨n, _, e, hf, -⟩ := number_memoryAt (m := m) h
    cases e
    rw [amount_accessor m hs, hf]
  | @prev _ _ s hp ha address l l' l'' =>
    simp only [callField, hp, ha] at h
    cases hf : memoryAt s (.integer address l) with
    | error e => rw [hf] at h; cases h
    | ok g =>
      rw [hf] at h
      cases h
      obtain ⟨n, _, e, -, hg⟩ := number_memoryAt (m := m) hf
      cases e
      rw [amount_prev m hp ha, hg]

theorem IsOperand.denotesOperand {name : String} {args : List Expr} {l : Option Loc}
    (he : IsOperand functions (.call name args l)) : denotesOperand functions name = true := by
  cases he with
  | accessor hs => simp [Compile.denotesOperand, hs, Function.isOperand]
  | prev hp => simp [Compile.denotesOperand, hp, Function.isOperand]

/-- An operand of a comparison stands for the field that it becomes. -/
theorem number_operandField {e : Expr} {f : Wire.Field} (he : IsLinear functions e)
    (h : operandField functions e = .ok f) : f.number m = e.amount functions m := by
  cases he with
  | integer n l =>
    simp only [operandField] at h
    split at h
    next w hw =>
      cases h
      simp [Field.number, Field.literal, amount, Word.val_of_ofInt? hw]
    · cases h
  | operand he =>
    cases e with
    | call name args l =>
      rw [operandField, if_pos (IsOperand.denotesOperand he)] at h
      exact number_callField he h
    | _ => cases he
  | add => cases h
  | sub => cases h

theorem number_operandFields {es : List Expr} {fs : List Wire.Field}
    (hes : ∀ e ∈ es, IsLinear functions e) (h : operandFields functions es = .ok fs) :
    fs.map (Wire.Field.number m) = es.map (amount functions m) := by
  induction es generalizing fs with
  | nil => cases h; rfl
  | cons e rest ih =>
    simp only [operandFields] at h
    split at h
    · cases h
    next field hfield =>
      split at h
      · cases h
      next fields hfields =>
        cases h
        rw [List.map_cons, List.map_cons, number_operandField (hes e (by simp)) hfield,
          ih (fun e he => hes e (by simp [he])) hfields]

/-! ## Summands -/

/-- The amount that a summand adds to its side. -/
def Summand.amount (functions : FunctionTable) (m : Memory) (s : Summand) : Int :=
  if s.added then s.expr.amount functions m else -s.expr.amount functions m

/-- The summands of a side make up its amount, each of them a sum of its own. -/
theorem summands_amount {e : Expr} (he : IsLinear functions e) (added : Bool) {ss : List Summand}
    (h : summands added e = .ok ss) :
    (∀ s ∈ ss, IsLinear functions s.expr) ∧
      (ss.map (Summand.amount functions m)).sum = Summand.amount functions m ⟨added, e⟩ := by
  induction he generalizing added ss with
  | integer n l =>
    cases h
    exact ⟨by simpa using .integer n l, by simp⟩
  | @operand e he =>
    obtain rfl : ss = [⟨added, e⟩] := by cases he <;> (cases h; rfl)
    exact ⟨by simpa using .operand he, by simp⟩
  | add ha hb l iha ihb =>
    simp only [summands] at h
    split at h
    · cases h
    next left hleft =>
      split at h
      · cases h
      next right hright =>
        cases h
        obtain ⟨hl, el⟩ := iha added hleft
        obtain ⟨hr, er⟩ := ihb added hright
        refine ⟨fun s hs => (List.mem_append.1 hs).elim (hl s) (hr s), ?_⟩
        rw [List.map_append, List.sum_append, el, er]
        cases added
        · simp only [Summand.amount, Expr.amount, Bool.false_eq_true, if_false, neg_add]
        · simp only [Summand.amount, Expr.amount, if_true]
  | sub ha hb l iha ihb =>
    simp only [summands] at h
    split at h
    · cases h
    next left hleft =>
      split at h
      · cases h
      next right hright =>
        cases h
        obtain ⟨hl, el⟩ := iha added hleft
        obtain ⟨hr, er⟩ := ihb (!added) hright
        refine ⟨fun s hs => (List.mem_append.1 hs).elim (hl s) (hr s), ?_⟩
        rw [List.map_append, List.sum_append, el, er]
        cases added <;> simp [Summand.amount, Expr.amount] <;> ring

/-- The sum of the amounts of operands that count as given. -/
def operandSum (functions : FunctionTable) (m : Memory) (added : Bool) (ss : List Summand) : Int :=
  ((operandsOf added ss).map (Expr.amount functions m)).sum

/-- A side is its constant and its operands, the subtracted ones taken away. -/
theorem sum_amount (ss : List Summand) :
    (ss.map (Summand.amount functions m)).sum =
      constantOf ss + operandSum functions m true ss - operandSum functions m false ss := by
  induction ss with
  | nil => rfl
  | cons s ss ih =>
    obtain ⟨added, e⟩ := s
    have hconst : constantOf (⟨added, e⟩ :: ss) = Summand.constant ⟨added, e⟩ + constantOf ss := rfl
    rw [List.map_cons, List.sum_cons, ih, hconst]
    cases e <;> cases added <;>
      simp [Summand.amount, Summand.constant, operandSum, operandsOf, Summand.isOperand,
        Expr.integer?, Expr.amount] <;> ring

/-! ## Comparisons -/

theorem mem_of_mem_operandsOf {added : Bool} {ss : List Summand} {e : Expr}
    (h : e ∈ operandsOf added ss) : ∃ s ∈ ss, s.expr = e := by
  obtain ⟨s, hs, rfl⟩ := List.mem_map.1 h
  exact ⟨s, (List.mem_filter.1 hs).1, rfl⟩

/-- The rows for operands and a right field compare the operands with the field. -/
theorem means_sumRows {op : Relation} {ss : List Summand} {right : Wire.Field} {loc : Option Loc}
    {rows : Group} (hss : ∀ s ∈ ss, IsLinear functions s.expr)
    (h : sumRows functions op ss right loc = .ok rows) :
    Group.Means m rows (op.holds (operandSum functions m true ss - operandSum functions m false ss)
      (right.number m)) := by
  have hlin (added : Bool) : ∀ e ∈ operandsOf added ss, IsLinear functions e := by
    intro e he
    obtain ⟨s, hs, rfl⟩ := mem_of_mem_operandsOf he
    exact hss s hs
  simp only [sumRows] at h
  split at h
  · cases h
  split at h
  · cases h
  next subtracted hsub =>
    split at h
    · cases h
    next added hadd =>
      split at h
      next hrows =>
        cases h
        have means := means_comparingRows (m := m) hrows
        rwa [number_operandFields (hlin true) hadd, number_operandFields (hlin false) hsub] at means
      · cases h

/-- Without operands a side is its constant. -/
theorem operandSum_eq_zero {ss : List Summand} (h : ss.all (!·.isOperand) = true) (added : Bool) :
    operandSum functions m added ss = 0 := by
  have none : operandsOf added ss = [] := by
    simp only [operandsOf, List.map_eq_nil_iff, List.filter_eq_nil_iff]
    intro s hs
    have := List.all_eq_true.1 h s hs
    simp_all
  rw [operandSum, none]
  rfl

theorem means_orderedRows {op : Relation} {left right : Expr} {loc : Option Loc} {rows : Group}
    (hl : IsLinear functions left) (hr : IsLinear functions right)
    (h : orderedRows functions op left right loc = .ok rows) :
    Group.Means m rows (op.holds (left.amount functions m) (right.amount functions m)) := by
  simp only [orderedRows] at h
  split at h
  · cases h
  next ss hsum =>
    obtain ⟨hss, hamount⟩ := summands_amount (m := m) hl true hsum
    have hleft : left.amount functions m =
        operandSum functions m true ss - operandSum functions m false ss + constantOf ss := by
      have := hamount.symm.trans (sum_amount ss)
      simp only [Summand.amount, if_true] at this
      rw [this]
      ring
    split at h
    next n rightLoc =>
      -- the constant of the left side moves over to the number on the right
      have hright : (Expr.integer n rightLoc).amount functions m = n := rfl
      rw [hleft, hright, ← Relation.holds_sub]
      split at h
      next hall =>
        cases h
        rw [operandSum_eq_zero hall, operandSum_eq_zero hall]
        exact means_constantRow _
      · split at h
        · cases h
        · split at h
          · cases h
          next field hfield =>
            have hnum := number_operandField (m := m) (.integer _ rightLoc) hfield
            have means := means_sumRows (m := m) hss h
            rwa [hnum] at means
    · split at h
      · cases h
      next hzero =>
        split at h
        · cases h
        next field hfield =>
          have hconst : constantOf ss = 0 := not_not.1 hzero
          have means := means_sumRows (m := m) hss h
          rwa [number_operandField hr hfield, ← add_zero (_ - _), ← hconst, ← hleft] at means

/-- **The rows of a comparison hold exactly when the comparison does.** -/
theorem means_comparisonRows {op : Relation} {left right : Expr} {loc : Option Loc} {rows : Group}
    (hl : IsLinear functions left) (hr : IsLinear functions right)
    (h : comparisonRows functions op left right loc = .ok rows) :
    Group.Means m rows (op.holds (left.amount functions m) (right.amount functions m)) := by
  simp only [comparisonRows] at h
  split at h
  · rw [← Relation.holds_mirrored]
    exact means_orderedRows hr hl h
  · exact means_orderedRows hl hr h

end Compile

end AchievementLang

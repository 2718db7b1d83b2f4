import AchievementLang.Proofs.Compile.Rows
import AchievementLang.Proofs.Eval.Table
import Mathlib.Algebra.BigOperators.Group.List.Basic
import Mathlib.Tactic.Ring

/-!
# The linear form of a value

Once it is known what each field reads, a value of a leaderboard stands for a number, in exact
arithmetic over the rationals (`Expr.quantity`), and so does a sum of terms (`Wire.Sum.amount`).

A value compiles to the terms of its linear form (`Compile.amount_valueTerms`). Multipliers are
pushed down to the operands, so the parts of an expression amount to its quantity times what it is
multiplied by (`Compile.amount_parts`), and each operand has one part (`Compile.fields_parts`). The
numbers among the parts are then added up into one constant at the end (`Compile.termsOf_eq`).
-/

namespace AchievementLang

/-! ## Sums of terms -/

namespace Wire

variable (reading : Field → ℚ)

/-- What the term adds to its sum: what the field reads times the multiplier, or a constant. -/
def Term.amount (t : Term) : ℚ :=
  match t.field with
  | some f => t.multiplier * reading f
  | none => t.multiplier

/-- The number that the sum stands for. -/
def Sum.amount (s : Sum) : ℚ := (s.map (Term.amount reading)).sum

theorem Sum.amount_cons (t : Term) (s : Sum) :
    Sum.amount reading (t :: s) = t.amount reading + Sum.amount reading s := by
  rw [amount, List.map_cons, List.sum_cons, amount]

theorem Sum.amount_append (s s' : Sum) :
    Sum.amount reading (s ++ s') = Sum.amount reading s + Sum.amount reading s' := by
  rw [amount, amount, amount, List.map_append, List.sum_append]

end Wire

/-! ## Values of leaderboards -/

namespace Expr

variable (functions : FunctionTable)

/-- The field that a memory read reads: a call of an accessor with an address, or of `prev` with
such a call. -/
def operand? : Expr → Option Wire.Field
  | .call name [.integer n _] _ =>
    match functions.get? name with
    | some (.accessor s) => (Wire.Word.ofInt? n).map (.memory s)
    | _ => none
  | .call name [.call accessor [.integer n _] _] _ =>
    match functions.get? name, functions.get? accessor with
    | some .prev, some (.accessor s) => (Wire.Word.ofInt? n).map (.previous s)
    | _, _ => none
  | _ => none

/-- The fields of the memory reads, one for each occurrence, from left to right. -/
def operands : Expr → List Wire.Field
  | .math _ a b _ => operands a ++ operands b
  | e => (operand? functions e).toList

/-- The number that the value stands for if fields read these numbers. Quotients are exact. What is
no number, memory read, sum, difference, product or quotient is no value, and counts as zero. -/
def quantity (reading : Wire.Field → ℚ) : Expr → ℚ
  | .integer n _ => n
  | .math .add a b _ => quantity reading a + quantity reading b
  | .math .sub a b _ => quantity reading a - quantity reading b
  | .math .mul a b _ => quantity reading a * quantity reading b
  | .math .div a b _ => quantity reading a / quantity reading b
  | e => ((operand? functions e).map reading).getD 0

end Expr

namespace Compile

open Wire AchievementLang.Expr

variable {functions : FunctionTable} {reading : Field → ℚ} {k : ℚ} {e : Expr}

/-! ## Operands -/

/-- A value that is a memory read becomes the field that it reads. -/
theorem operand?_of_callField (ht : functions.Sound) {name : String} {args : List Expr}
    {l : Option Loc} {f : Field} (he : IsReduced (.call name args l))
    (h : callField functions (.call name args l) = .ok f) :
    operand? functions (.call name args l) = some f := by
  unfold callField at h
  split at h
  next name' arg rest l' heq =>
    obtain ⟨rfl, rfl, rfl⟩ : name = name' ∧ args = arg :: rest ∧ l = l' := by simpa using heq
    split at h
    next s hname =>
      obtain rfl := ht.named hname
      obtain ⟨w, lw, e⟩ := he.leaves (f := .accessor s) rfl
      cases e
      simp only [memoryAt, Word.ofInt?_val] at h
      cases h
      simp [operand?, hname]
    next hname =>
      obtain rfl := ht.named hname
      obtain ⟨s, w, lw, lw', e⟩ := he.leaves (f := .prev) rfl
      cases e
      obtain hs | ⟨d, hs⟩ := ht.get? (f := .accessor s) rfl
      · rw [Function.name] at hs
        simp only [callField, hs, memoryAt, Word.ofInt?_val] at h
        cases h
        simp [operand?, hname, hs, previousOf, Field.memory, Field.previous]
      · rw [Function.name] at hs
        simp only [callField, hs] at h
        cases h
    · cases h
  · cases h

/-! ## Parts -/

/-- The part as a term of its own. -/
def Part.term (p : Part) : Term := ⟨p.field, p.multiplier⟩

/-- **The parts of a value amount to its quantity**, times what the value itself is
multiplied by. -/
theorem amount_parts (ht : functions.Sound) {ps : List Part} (he : e.IsReduced)
    (h : parts functions k e = .ok ps) :
    Sum.amount reading (ps.map Part.term) = k * quantity functions reading e := by
  refine parts_induction (motive := fun k e ps => e.IsReduced →
    Sum.amount reading (ps.map Part.term) = k * quantity functions reading e)
    ?integer ?operand ?add ?sub ?mulRight ?mulLeft ?div h he
  case integer =>
    intro k n l _
    simp [Sum.amount, Term.amount, Part.term, quantity]
  case operand =>
    intro k name args l f hf he
    have hread := operand?_of_callField ht he hf
    simp [Sum.amount, Term.amount, Part.term, quantity, hread]
  case add =>
    intro k a b l ps qs iha ihb he
    cases he with
    | math op ha hb =>
      rw [List.map_append, Sum.amount_append, iha ha, ihb hb, quantity]
      ring
  case sub =>
    intro k a b l ps qs iha ihb he
    cases he with
    | math op ha hb =>
      rw [List.map_append, Sum.amount_append, iha ha, ihb hb, quantity]
      ring
  case mulRight =>
    intro k a n l l' ps ih he
    cases he with
    | math op ha hb =>
      rw [ih ha, quantity, quantity]
      ring
  case mulLeft =>
    intro k n l b l' ps ih he
    cases he with
    | math op ha hb =>
      rw [ih hb, quantity, quantity]
      ring
  case div =>
    intro k a n l l' ps hn ih he
    cases he with
    | math op ha hb =>
      rw [ih ha, quantity, quantity]
      ring

/-- **There is one part for each operand of a value**, in order. -/
theorem fields_parts (ht : functions.Sound) {ps : List Part} (he : e.IsReduced)
    (h : parts functions k e = .ok ps) : ps.filterMap Part.field = operands functions e := by
  have append {op : Operator} {a b : Expr} {l : Option Loc} (ps qs : List Part)
      (iha : a.IsReduced → ps.filterMap Part.field = operands functions a)
      (ihb : b.IsReduced → qs.filterMap Part.field = operands functions b)
      (he : IsReduced (.math op a b l)) :
      (ps ++ qs).filterMap Part.field = operands functions (.math op a b l) := by
    cases he with
    | math op ha hb => rw [List.filterMap_append, iha ha, ihb hb, operands]
  refine parts_induction
    (motive := fun _ e ps => e.IsReduced → ps.filterMap Part.field = operands functions e)
    (fun k n l _ => rfl) ?operand (fun k a b l => append) (fun k a b l => append)
    ?mulRight ?mulLeft ?div h he
  case operand =>
    intro k name args l f hf he
    simp [operands, operand?_of_callField ht he hf]
  case mulRight =>
    intro k a n l l' ps ih he
    simpa using append ps [] ih (fun _ => rfl) he
  case mulLeft =>
    intro k n l b l' ps ih he
    exact append [] ps (fun _ => rfl) ih he
  case div =>
    intro k a n l l' ps hn ih he
    simpa using append ps [] ih (fun _ => rfl) he

/-! ## Terms -/

/-- The first part adds to the constant if it is a number. -/
theorem constantPart_cons (p : Part) (ps : List Part) :
    constantPart (p :: ps) = (if p.field.isNone then p.multiplier else 0) + constantPart ps := by
  have start : (if p.field.isNone then 0 + p.multiplier else 0) =
      (if p.field.isNone then p.multiplier else 0) + 0 := by
    rw [zero_add, add_zero]
  rw [constantPart, List.foldl_cons, start, constantPart]
  refine List.foldl_hom ((if p.field.isNone then p.multiplier else 0) + ·) fun sum q => ?_
  split <;> ring

/-- The terms of the operands and the constant amount together to what the parts do. -/
theorem amount_terms (ps : List Part) :
    Sum.amount reading (ps.filterMap Part.term?) + constantPart ps =
      Sum.amount reading (ps.map Part.term) := by
  induction ps with
  | nil => exact add_zero _
  | cons p ps ih =>
    rw [constantPart_cons, List.map_cons, Sum.amount_cons, ← ih]
    obtain ⟨_ | f, x⟩ := p
    · rw [List.filterMap_cons_none rfl]
      simp only [Part.term, Term.amount, Option.isNone_none, if_true]
      ring
    · have hterm : Part.term? ⟨some f, x⟩ = some ⟨some f, x⟩ := rfl
      rw [List.filterMap_cons_some hterm, Sum.amount_cons]
      simp only [Part.term, Term.amount, Option.isNone_some, Bool.false_eq_true, if_false]
      ring

/-- Of the terms only the last one may be a constant, which is zero only if it is alone. -/
theorem termsOf_eq (ps : List Part) :
    ∃ constants, termsOf ps = ps.filterMap Part.term? ++ constants ∧
      (constants = [] ∧ constantPart ps = 0 ∨ constants = [.constant (constantPart ps)] ∧
        (constantPart ps ≠ 0 ∨ ps.filterMap Part.term? = [])) := by
  unfold termsOf
  dsimp only
  split
  next h => exact ⟨_, rfl, .inr ⟨rfl, h⟩⟩
  next h => exact ⟨[], (List.append_nil _).symm, .inl ⟨rfl, not_not.1 (not_or.1 h).1⟩⟩

theorem map_field_filterMap_term? (ps : List Part) :
    (ps.filterMap Part.term?).map Term.field = (ps.filterMap Part.field).map some := by
  rw [List.map_filterMap, List.map_filterMap]
  refine List.filterMap_congr fun p _ => ?_
  obtain ⟨_ | f, x⟩ := p <;> rfl

/-- **A value compiles to its linear form.** Whatever fields read, the terms amount to the quantity
of the value. There is one term for each operand, in order, and then at most one constant, which is
not zero unless it is alone. -/
theorem amount_valueTerms (ht : functions.Sound) {terms : Wire.Sum} (he : e.IsReduced)
    (h : valueTerms functions e = .ok terms) :
    (∀ reading, Sum.amount reading terms = quantity functions reading e) ∧
      ∃ multiples constants, terms = multiples ++ constants ∧
        multiples.map Term.field = (operands functions e).map some ∧
        (constants = [] ∨ ∃ x, constants = [.constant x] ∧ (x ≠ 0 ∨ multiples = [])) := by
  unfold valueTerms at h
  cases hps : parts functions 1 e with
  | error f =>
    rw [hps] at h
    cases h
  | ok ps =>
    rw [hps] at h
    cases h
    obtain ⟨constants, hterms, hconstants⟩ := termsOf_eq ps
    refine ⟨fun reading => ?_, _, constants, hterms, ?_, ?_⟩
    · have hconstant : Sum.amount reading constants = constantPart ps := by
        obtain ⟨rfl, hzero⟩ | ⟨rfl, -⟩ := hconstants
        · exact hzero.symm
        · simp [Sum.amount, Term.amount, Term.constant]
      rw [hterms, Sum.amount_append, hconstant, amount_terms, amount_parts ht he hps, one_mul]
    · rw [map_field_filterMap_term?, fields_parts ht he hps]
    · obtain ⟨rfl, -⟩ | ⟨rfl, h⟩ := hconstants
      · exact .inl rfl
      · exact .inr ⟨_, rfl, h⟩

/-- Half of a difference, where a multiple of another difference is subtracted, and a constant
behind it: the constants of three depths add up, and the product has its number on the left. -/
theorem amount_valueTerms_nested :
    let byte : Expr := .call "byte" [.integer 1 none] none
    let word : Expr := .call "prev" [.call "word" [.integer 2 none] none] none
    let e : Expr := .math .add
      (.math .div
        (.math .sub byte (.math .mul (.integer 3 none)
          (.math .sub word (.math .sub (.integer 7 none) byte none) none) none) none)
        (.integer 2 none) none)
      (.integer 5 none) none
    let first : Field := .memory .byte ⟨1, by decide⟩
    let second : Field := .previous .word ⟨2, by decide⟩
    let terms : Wire.Sum :=
      [⟨some first, 1 / 2⟩, ⟨some second, -3 / 2⟩, ⟨some first, -3 / 2⟩, .constant (31 / 2)]
    FunctionTable.initial.Sound ∧ e.IsReduced ∧ valueTerms .initial e = .ok terms ∧
      (∀ reading, Sum.amount reading terms = quantity .initial reading e) ∧
      ∃ multiples constants, terms = multiples ++ constants ∧
        multiples.map Term.field = (operands .initial e).map some ∧
        (constants = [] ∨ ∃ x, constants = [.constant x] ∧ (x ≠ 0 ∨ multiples = [])) := by
  intro byte word e first second terms
  have hbyte : byte.IsReduced := .accessor .byte ⟨1, by decide⟩ _ _
  have hword : word.IsReduced := .prev .word ⟨2, by decide⟩ _ _ _
  have he : e.IsReduced := by
    refine .math .add (.math .div (.math .sub hbyte (.math .mul (.integer 3 _)
      (.math .sub hword (.math .sub (.integer 7 _) hbyte ?_ ?_ _) ?_ ?_ _) ?_ ?_ _) ?_ ?_ _)
      (.integer 2 _) ?_ ?_ _) (.integer 5 _) ?_ ?_ _
    all_goals decide
  have h : valueTerms .initial e = .ok terms := by
    have hsome : (valueTerms .initial e).toOption = some terms := by decide +kernel
    cases hfound : valueTerms .initial e with
    | error f =>
      rw [hfound] at hsome
      cases hsome
    | ok found =>
      rw [hfound] at hsome
      exact congrArg Except.ok (Option.some.inj hsome)
  exact ⟨FunctionTable.sound_initial, he, h, amount_valueTerms FunctionTable.sound_initial he h⟩

end Compile

end AchievementLang

import AchievementLang.Compile.Trigger
import AchievementLang.Compile.Value

/-!
# Places do not matter

What is compiled does not depend on the places in the script where its nodes were written: to
compile an expression without places is to compile it, and to forget the places in the error if
there is one. An error says the same without places, since places are not printed.
-/

namespace AchievementLang

namespace Expr

theorem loc_bare (e : Expr) : e.bare.loc = none := by cases e <;> rfl

theorem integer?_bare (e : Expr) : e.bare.integer? = e.integer? := by cases e <;> rfl

end Expr

/-! ## Errors without places -/

mutual

theorem Expr.text_bare (e : Expr) : e.bare.text = e.text := by
  cases e <;> simp only [bare, text, Expr.text_bare, Expr.texts_bareAll]

theorem Expr.texts_bareAll (es : List Expr) : texts (bareAll es) = texts es := by
  cases es with
  | nil => rfl
  | cons e rest => rw [bareAll, texts, texts, Expr.text_bare e, Expr.texts_bareAll rest]

end

/-- The cause without places. -/
def Cause.bare : Cause → Cause
  | .cannotNegate e => .cannotNegate e.bare
  | .notAConditionExpr e => .notAConditionExpr e.bare
  | .notAnOperand e => .notAnOperand e.bare
  | .conditionAsValue e => .conditionAsValue e.bare
  | .notAValueExpr e => .notAValueExpr e.bare
  | c => c

theorem Cause.kind_bare (c : Cause) : c.bare.kind = c.kind := by cases c <;> rfl

theorem Cause.hint?_bare (c : Cause) : c.bare.hint? = c.hint? := by cases c <;> rfl

/-- Causes are told in the same words. -/
theorem Cause.message_bare (c : Cause) : c.bare.message = c.message := by
  cases c with
  | cannotNegate e => exact congrArg (fun t => s!"! cannot be applied to {t}") e.text_bare
  | notAConditionExpr e =>
    exact congrArg (fun t => s!"Expression is not a condition: {t}") e.text_bare
  | notAnOperand e =>
    exact congrArg (fun t => s!"{t} is not a memory reference or constant") e.text_bare
  | conditionAsValue e =>
    exact congrArg (fun t => s!"Condition used where a value was expected: {t}") e.text_bare
  | notAValueExpr e => exact congrArg (fun t => s!"Expression is not a value: {t}") e.text_bare
  | _ => exact congrArg message rfl

/-- The failure without places. -/
def Failure.bare : Failure → Failure
  | .fault f => .at? f.cause.bare none
  | .malformed e => .malformed e
  | .breakdown b => .breakdown b

/-- An error without places is reported in the same words. -/
theorem Failure.diagnostic?_bare (f : Fault) :
    (fault f).bare.diagnostic? = some { f.diagnostic with place := none } := by
  rw [bare, at?, diagnostic?, Fault.diagnostic, Cause.kind_bare, Cause.message_bare,
    Cause.hint?_bare]
  rfl

/-- What something came to, without places. -/
def bareOutcome {α : Type} (bare : α → α) : Except Failure α → Except Failure α
  | .ok a => .ok (bare a)
  | .error f => .error f.bare

namespace Compile

variable (functions : FunctionTable)

/-! ## Operands -/

theorem memoryAt_bare (size : Wire.Size) (e : Expr) :
    memoryAt size e.bare = bareOutcome id (memoryAt size e) := by
  cases e with
  | integer n l =>
    simp only [Expr.bare, memoryAt]
    cases Wire.Word.ofInt? n <;> rfl
  | _ => rfl

theorem callField_bare (e : Expr) :
    callField functions e.bare = bareOutcome id (callField functions e) := by
  match e with
  | .call name [] l => rfl
  | .call name (a :: rest) l =>
    simp only [Expr.bare, Expr.bareAll, callField, callField_bare a, memoryAt_bare]
    cases functions.get? name with
    | none => rfl
    | some f =>
      cases f with
      | prev =>
        dsimp only
        cases callField functions a <;> rfl
      | _ => rfl
  | .string .. | .integer .. | .var .. | .compare .. | .math .. | .not .. | .logic .. | .array ..
  | .assign .. | .ret .. | .declare .. => rfl

theorem operandField_bare (e : Expr) :
    operandField functions e.bare = bareOutcome id (operandField functions e) := by
  cases e with
  | integer n l =>
    simp only [Expr.bare, operandField]
    cases Wire.Word.ofInt? n <;> rfl
  | call name args l =>
    have hfield := callField_bare functions (.call name args l)
    simp only [Expr.bare, operandField] at hfield ⊢
    split
    · exact hfield
    · rfl
  | _ => rfl

theorem operandFields_bare (es : List Expr) :
    operandFields functions (Expr.bareAll es) =
      bareOutcome id (operandFields functions es) := by
  induction es with
  | nil => rfl
  | cons e rest ih =>
    simp only [Expr.bareAll, operandFields, operandField_bare, ih]
    cases operandField functions e with
    | error f => rfl
    | ok field => cases operandFields functions rest <;> rfl

/-! ## Comparisons -/

/-- The summand without places. -/
def Summand.bare (s : Summand) : Summand := { s with expr := s.expr.bare }

theorem summands_bare (added : Bool) (e : Expr) :
    summands added e.bare =
      bareOutcome (·.map Summand.bare) (summands added e) := by
  match e with
  | .math op a b l =>
    cases op with
    | add =>
      simp only [Expr.bare, summands, summands_bare added a, summands_bare added b]
      cases summands added a with
      | error f => rfl
      | ok left => cases summands added b <;> simp [bareOutcome]
    | sub =>
      simp only [Expr.bare, summands, summands_bare added a, summands_bare (!added) b]
      cases summands added a with
      | error f => rfl
      | ok left => cases summands (!added) b <;> simp [bareOutcome]
    | _ => rfl
  | .string .. | .integer .. | .var .. | .compare .. | .call .. | .not .. | .logic .. | .array ..
  | .assign .. | .ret .. | .declare .. => rfl

theorem Summand.isOperand_bare (s : Summand) : s.bare.isOperand = s.isOperand := by
  rw [isOperand, isOperand, bare, Expr.integer?_bare]

theorem Summand.constant_bare (s : Summand) : s.bare.constant = s.constant := by
  obtain ⟨added, e⟩ := s
  cases e <;> rfl

theorem constantOf_bare (ss : List Summand) : constantOf (ss.map Summand.bare) = constantOf ss := by
  simp only [constantOf, List.foldr_map, Summand.constant_bare]

theorem operandsOf_bare (added : Bool) (ss : List Summand) :
    operandsOf added (ss.map Summand.bare) = Expr.bareAll (operandsOf added ss) := by
  rw [operandsOf, operandsOf, Expr.bareAll_eq_map, List.filter_map, List.map_map, List.map_map]
  congr 1
  exact List.filter_congr fun s _ => congrArg (· && s.added == added) s.isOperand_bare

theorem sumRows_bare (op : Relation) (ss : List Summand) (right : Wire.Field) (loc : Option Loc) :
    sumRows functions op (ss.map Summand.bare) right none =
      bareOutcome id (sumRows functions op ss right loc) := by
  have hempty (es : List Expr) : (Expr.bareAll es).isEmpty = es.isEmpty := by cases es <;> rfl
  simp only [sumRows, operandsOf_bare, operandFields_bare, hempty]
  split
  · rfl
  · cases operandFields functions (operandsOf false ss) with
    | error f => rfl
    | ok subtracted =>
      cases operandFields functions (operandsOf true ss) with
      | error f => rfl
      | ok added =>
        dsimp only [bareOutcome, id]
        cases comparingRows op added subtracted right <;> rfl

theorem orderedRows_bare (op : Relation) (left right : Expr) (loc : Option Loc) :
    orderedRows functions op left.bare right.bare none =
      bareOutcome id (orderedRows functions op left right loc) := by
  have hoperand := operandField_bare functions right
  have hall (ss : List Summand) :
      (ss.map Summand.bare).all (!·.isOperand) = ss.all (!·.isOperand) := by
    rw [List.all_map]
    exact congrArg ss.all (funext fun s => congrArg (!·) s.isOperand_bare)
  rw [orderedRows, orderedRows, summands_bare]
  cases summands true left with
  | error f => rfl
  | ok ss =>
    cases right with
    | integer n l =>
      simp only [Expr.bare, bareOutcome, hall, constantOf_bare]
      split
      · rfl
      · split
        · rfl
        · have hlimit := operandField_bare functions (.integer (n - constantOf ss) l)
          rw [Expr.bare] at hlimit
          rw [hlimit]
          cases operandField functions (.integer (n - constantOf ss) l) with
          | error f => rfl
          | ok field => exact sumRows_bare functions op ss field loc
    | _ =>
      simp only [Expr.bare] at hoperand
      simp only [Expr.bare, bareOutcome, constantOf_bare, hoperand]
      split
      · rfl
      · generalize operandField functions _ = field
        cases field with
        | error f => rfl
        | ok field => exact sumRows_bare functions op ss field loc

theorem comparisonRows_bare (op : Relation) (left right : Expr) (loc : Option Loc) :
    comparisonRows functions op left.bare right.bare none =
      bareOutcome id (comparisonRows functions op left right loc) := by
  simp only [comparisonRows, Expr.integer?_bare]
  split
  · exact orderedRows_bare functions _ right left loc
  · exact orderedRows_bare functions _ left right loc

/-! ## Conditions -/

theorem modifyRow_bare (f : Function) (args : List Expr) (row : Wire.Requirement) :
    modifyRow f (Expr.bareAll args) row = bareOutcome id (modifyRow f args row) := by
  cases f with
  | repeated =>
    cases args with
    | nil => rfl
    | cons e rest => cases e <;> rfl
  | _ => rfl

theorem modifyRows_bare (f : Function) (args : List Expr) (rows : Wire.Group) (loc : Option Loc) :
    modifyRows f (Expr.bareAll args) rows none =
      bareOutcome id (modifyRows f args rows loc) := by
  unfold modifyRows
  split
  · rfl
  · cases rows.getLast? with
    | none => rfl
    | some last =>
      dsimp only
      rw [modifyRow_bare]
      cases modifyRow f args last <;> rfl

theorem constantCallRows_bare (name : String) (loc : Option Loc) :
    constantCallRows functions name none =
      bareOutcome id (constantCallRows functions name loc) := by
  unfold constantCallRows
  cases functions.get? name with
  | none => rfl
  | some f => cases f <;> rfl

mutual

/-- **Conditions compile alike**, wherever they were written. -/
theorem conditionRows_bare (negated : Bool) (e : Expr) :
    conditionRows functions negated e.bare =
      bareOutcome id (conditionRows functions negated e) := by
  cases e with
  | not e l =>
    rw [Expr.bare, conditionRows, conditionRows]
    exact conditionRows_bare (!negated) e
  | logic op es l =>
    rw [Expr.bare, conditionRows, conditionRows]
    cases polarized negated op with
    | and => exact conjunctionRows_bare negated es
    | or => rfl
  | compare r a b l =>
    rw [Expr.bare, conditionRows, conditionRows]
    exact comparisonRows_bare functions _ a b l
  | call name args l =>
    rw [Expr.bare, conditionRows, conditionRows]
    cases negated with
    | true =>
      simp only [if_true]
      cases oppositeName? functions name with
      | some opposite => exact constantCallRows_bare functions opposite l
      | none => rfl
    | false =>
      simp only [Bool.false_eq_true, if_false, lastRows_bare args]
      cases functions.get? name with
      | none => rfl
      | some f =>
        cases f with
        | constant holds => rfl
        | once | repeated | never | pausing =>
          simp only [Function.isCondition, if_true]
          cases lastRows functions args with
          | error e => rfl
          | ok r => exact modifyRows_bare _ args r.1 r.2
        | _ => rfl
  | _ => cases negated <;> rfl

theorem conjunctionRows_bare (negated : Bool) (es : List Expr) :
    conjunctionRows functions negated (Expr.bareAll es) =
      bareOutcome id (conjunctionRows functions negated es) := by
  cases es with
  | nil => rfl
  | cons e rest =>
    simp only [Expr.bareAll, conjunctionRows, conditionRows_bare negated e,
      conjunctionRows_bare negated rest]
    cases conditionRows functions negated e with
    | error f => rfl
    | ok rows => cases conjunctionRows functions negated rest <;> rfl

theorem lastRows_bare (es : List Expr) :
    lastRows functions (Expr.bareAll es) =
      bareOutcome (fun r => (r.1, none)) (lastRows functions es) := by
  match es with
  | [] => rfl
  | [e] =>
    simp only [Expr.bareAll, lastRows, conditionRows_bare false e, Expr.loc_bare]
    cases conditionRows functions false e <;> rfl
  | _ :: e :: rest =>
    have hrest := lastRows_bare (e :: rest)
    simp only [Expr.bareAll, lastRows] at hrest ⊢
    exact hrest

end

theorem conditionText_bare (e : Expr) :
    conditionText functions e.bare = bareOutcome id (conditionText functions e) := by
  rw [conditionText, conditionText, conditionRows_bare]
  cases conditionRows functions false e <;> rfl

/-! ## Triggers -/

theorem negateAtom_bare (e : Expr) :
    negateAtom (some functions) e.bare = (negateAtom (some functions) e).bare := by
  cases e with
  | call name args l =>
    simp only [Expr.bare, negateAtom]
    cases (some functions).bind (oppositeName? · name) <;> rfl
  | _ => rfl

mutual

theorem normalize_bare (negated : Bool) (e : Expr) :
    normalize (some functions) negated e.bare = (normalize (some functions) negated e).bare := by
  cases e with
  | not e l =>
    rw [Expr.bare, normalize, normalize]
    exact normalize_bare (!negated) e
  | logic op es l =>
    rw [Expr.bare, normalize, normalize, Expr.bare, normalizeOperands_bare]
  | _ =>
    simp only [Expr.bare, normalize]
    split
    · rw [← negateAtom_bare]
      rfl
    · rfl

theorem normalizeOperands_bare (negated : Bool) (op : Connective) (es : List Expr) :
    normalizeOperands (some functions) negated op (Expr.bareAll es) =
      Expr.bareAll (normalizeOperands (some functions) negated op es) := by
  cases es with
  | nil => rfl
  | cons e rest =>
    rw [Expr.bareAll, normalizeOperands, normalizeOperands, normalize_bare negated e,
      normalizeOperands_bare negated op rest, ← Expr.bareAll_operandsOf, Expr.bareAll_append]

end

theorem alternateGroups_bare (es : List Expr) :
    alternateGroups functions (Expr.bareAll es) =
      bareOutcome id (alternateGroups functions es) := by
  induction es with
  | nil => rfl
  | cons e rest ih =>
    simp only [Expr.bareAll, alternateGroups, conditionRows_bare functions false e, ih]
    cases conditionRows functions false e with
    | error f => rfl
    | ok rows => cases alternateGroups functions rest <;> rfl

theorem coreRows_bare (outer : Option Loc) (alternative : Option (List Expr)) (es : List Expr) :
    coreRows functions none (alternative.map Expr.bareAll) (Expr.bareAll es) =
      bareOutcome (fun r => (r.1, r.2.map Expr.bareAll))
        (coreRows functions outer alternative es) := by
  induction es generalizing alternative with
  | nil => rfl
  | cons e rest ih =>
    by_cases hor : ∃ es l, e = .logic .or es l
    · obtain ⟨es, l, rfl⟩ := hor
      cases alternative with
      | none => exact ih (some es)
      | some found => rfl
    · have hbare (es : List Expr) (l : Option Loc) (h : e.bare = .logic .or es l) : False := by
        cases e with
        | logic op es' l' =>
          cases h
          exact hor ⟨es', l', rfl⟩
        | _ => cases h
      rw [Expr.bareAll, coreRows, coreRows, conditionRows_bare, ih]
      · cases conditionRows functions false e with
        | error f => rfl
        | ok rows => cases coreRows functions outer alternative rest <;> rfl
      · exact fun es l h => hor ⟨es, l, h⟩
      · exact hbare

/-- **Triggers compile alike**, wherever their conditions were written. -/
theorem trigger_bare (e : Expr) :
    trigger functions e.bare = bareOutcome id (trigger functions e) := by
  have hcore (normal : Expr) := coreRows_bare functions normal.loc none
    (conjuncts normal)
  simp only [trigger, conjuncts, normalize_bare, Expr.loc_bare, ← Expr.bareAll_operandsOf,
    Option.map_none] at hcore ⊢
  rw [hcore]
  cases coreRows functions _ none _ with
  | error f => rfl
  | ok r =>
    obtain ⟨core, alternative⟩ := r
    have hgetD : (alternative.map Expr.bareAll).getD [] = Expr.bareAll (alternative.getD []) := by
      cases alternative <;> rfl
    simp only [bareOutcome, hgetD, alternateGroups_bare]
    cases alternateGroups functions (alternative.getD []) <;> rfl

/-! ## Values -/

theorem appendParts_bare (left right : Except Failure (List Part)) :
    appendParts (bareOutcome id left) (bareOutcome id right) =
      bareOutcome id (appendParts left right) := by
  cases left with
  | error f => rfl
  | ok ps => cases right <;> rfl

theorem bare_ne_integer {e : Expr} (h : ∀ n l, e = .integer n l → False) (n : Int)
    (l : Option Loc) (hbare : e.bare = .integer n l) : False := by
  cases e with
  | integer m l' => exact h m l' rfl
  | _ => cases hbare

theorem parts_bare (k : Rat) (e : Expr) :
    parts functions k e.bare = bareOutcome id (parts functions k e) := by
  induction k, e using parts.induct functions with
  | case1 k n l => rfl
  | case2 k a b l iha ihb => simp only [Expr.bare, parts, iha, ihb, appendParts_bare]
  | case3 k a b l iha ihb => simp only [Expr.bare, parts, iha, ihb, appendParts_bare]
  | case4 k l a n l' ih => simp only [Expr.bare, parts, ih]
  | case5 k l n l' b hb ih =>
    rw [Expr.bare, Expr.bare, parts, parts, ih]
    · exact hb
    · exact bare_ne_integer hb
  | case6 k l a b ha hb =>
    rw [Expr.bare, parts, parts]
    · rfl
    · exact ha
    · exact hb
    · exact bare_ne_integer ha
    · exact bare_ne_integer hb
  | case7 k a l n l' hn ih => simp only [Expr.bare, parts, if_pos hn, ih]
  | case8 k a l n l' hn =>
    simp only [Expr.bare, parts, if_neg hn]
    rfl
  | case9 k a l b hb =>
    rw [Expr.bare, parts, parts]
    · rfl
    · exact hb
    · exact bare_ne_integer hb
  | case11 k name args l hname =>
    have hfield := callField_bare functions (.call name args l)
    rw [Expr.bare] at hfield ⊢
    rw [parts, parts, if_pos hname, if_pos hname, hfield]
    cases callField functions (.call name args l) <;> rfl
  | case12 k name args l hname =>
    rw [Expr.bare, parts, parts, if_neg hname, if_neg hname]
    rfl
  | case17 k e _ _ _ _ _ _ _ _ _ _ hcompare =>
    cases e with
    | compare r a b l => exact (hcompare r a b l rfl).elim
    | math op | logic op => cases op <;> simp_all
    | string | var | array | assign | ret | declare => rfl
    | _ => simp_all
  | _ => rfl

/-- **Values compile alike**, wherever they were written. -/
theorem valueText_bare (e : Expr) :
    valueText functions e.bare = bareOutcome id (valueText functions e) := by
  rw [valueText, valueText, valueTerms, valueTerms, parts_bare]
  cases parts functions 1 e with
  | error f => rfl
  | ok ps =>
    dsimp only [Except.map, bareOutcome, id]
    cases Wire.Sum.wire? (termsOf ps) <;> rfl

end Compile

end AchievementLang

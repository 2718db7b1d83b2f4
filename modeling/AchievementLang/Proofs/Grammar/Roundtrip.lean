import AchievementLang.Expr.Printer
import AchievementLang.Proofs.Grammar.Series
import AchievementLang.Proofs.Text.Lines
import AchievementLang.Script

/-!
# Printed expressions read back

**The text of an expression is read back as the expression** (`Script.parse_text`), if scripts can
write it at all (`Expr.Writable`): names are names of the grammar, strings have no characters that
would need an escape, and connected conditions are connected as the reader connects them. Operations
and joined conditions are printed in parentheses and comparisons are not, so the operands of an
operation or a comparison must not be comparisons or negations.

The proof goes along `Expr.Writable`, with one rule of reading for each constructor
(`Writable.isReadBack`).
-/

namespace AchievementLang

open Grammar

namespace Expr

/-- The node is printed as a condition without parentheses around it. -/
def isOpenCondition : Expr → Bool
  | .compare .. | .not .. => true
  | _ => false

/-- Scripts can write the node. -/
inductive Writable : Expr → Prop
  | integer (n : Int) (l : Option Loc) : Writable (.integer n l)
  | string {s : String} (hs : ∀ c ∈ s.toList, c ≠ '"' ∧ c ≠ '\\' ∧ c ≠ '\n') (l : Option Loc) :
      Writable (.string s l)
  | var {x : String} (hx : IsIdentifier x) (l : Option Loc) : Writable (.var x l)
  | call {f : String} {args : List Expr} (hf : IsIdentifier f)
      (hargs : ∀ a ∈ args, (∀ x e l, a ≠ .assign x e l) → Writable a)
      (hlabels : ∀ x e l, .assign x e l ∈ args → IsIdentifier x)
      (hnamed : ∀ x e l, .assign x e l ∈ args → Writable e) (l : Option Loc) :
      Writable (.call f args l)
  | array {es : List Expr} (hes : ∀ e ∈ es, Writable e) (l : Option Loc) : Writable (.array es l)
  | math (op : Operator) {a b : Expr} (ha : Writable a) (hb : Writable b)
      (ha' : a.isOpenCondition = false) (hb' : b.isOpenCondition = false) (l : Option Loc) :
      Writable (.math op a b l)
  | compare (r : Relation) {a b : Expr} (ha : Writable a) (hb : Writable b)
      (ha' : a.isOpenCondition = false) (hb' : b.isOpenCondition = false) (l : Option Loc) :
      Writable (.compare r a b l)
  | not {e : Expr} (he : Writable e) (l : Option Loc) : Writable (.not e l)
  | logic (op : Connective) {es : List Expr} (hlength : 2 ≤ es.length) (hes : ∀ e ∈ es, Writable e)
      (hop : ∀ e ∈ es, ∀ es' l', e ≠ .logic op es' l') (l : Option Loc) : Writable (.logic op es l)

/-- The kind of phrase that the node is written as. -/
def phrase : Expr → Nonterminal
  | .integer n _ => if n < 0 then .unary else .atom
  | .compare .. => .comparison
  | .not .. => .negation
  | _ => .atom

theorem phrase_mem_kinds (e : Expr) : e.phrase ∈ kinds := by
  cases e with
  | integer n l =>
    rw [phrase]
    split <;> decide
  | _ => simp [phrase, kinds]

theorem phrase_mem_operandKinds {e : Expr} (h : e.isOpenCondition = false) :
    e.phrase ∈ operandKinds := by
  cases e with
  | integer n l =>
    rw [phrase]
    split <;> decide
  | compare | not => cases h
  | _ => simp [phrase, operandKinds]

/-! ## Texts -/

/-- An expression with its text. -/
def withText (e : Expr) : Expr × List Char := (e, e.text.toList)

theorem map_fst_withText (es : List Expr) : (es.map withText).map Prod.fst = es := by
  rw [List.map_map]
  exact List.map_id es

/-- The first node, and the others led by the separator. -/
theorem toList_intercalate_texts (separator : String) (e : Expr) (es : List Expr) :
    (separator.intercalate (texts (e :: es))).toList =
      e.text.toList ++ (es.map withText).flatMap fun i => separator.toList ++ i.2 := by
  rw [texts_eq_map, List.map_cons, Text.toList_intercalate_cons, List.flatMap_map,
    List.flatMap_map]
  rfl

theorem toList_sign (sign : String) : (" " ++ sign ++ " ").toList = spaced sign.toList := by
  rw [String.toList_append, String.toList_append]
  rfl

theorem toList_text_string (s : String) (l : Option Loc) :
    (Expr.string s l).text.toList = '"' :: s.toList ++ ['"'] := by
  have htext : (Expr.string s l).text = "\"" ++ s ++ "\"" := rfl
  rw [htext, String.toList_append, String.toList_append]
  rfl

theorem toList_text_emptyCall (f : String) (l : Option Loc) :
    (Expr.call f [] l).text.toList = f.toList ++ ['('] ++ [')'] := by
  have htext : (Expr.call f [] l).text = f ++ "(" ++ "" ++ ")" := rfl
  rw [htext, String.append_empty, String.toList_append, String.toList_append]
  rfl

theorem toList_text_emptyArray (l : Option Loc) : (Expr.array [] l).text.toList = ['[', ']'] := by
  have htext : (Expr.array [] l).text = "[" ++ "" ++ "]" := rfl
  rw [htext, String.append_empty, String.toList_append]
  rfl

theorem toList_text_call (f : String) (e : Expr) (es : List Expr) (l : Option Loc) :
    (Expr.call f (e :: es) l).text.toList =
      f.toList ++ ['('] ++ (e.text.toList ++ Series.moreText (es.map withText) ++ [')']) := by
  have htext : (Expr.call f (e :: es) l).text =
      f ++ "(" ++ ", ".intercalate (texts (e :: es)) ++ ")" := rfl
  rw [htext]
  simp only [String.toList_append, toList_intercalate_texts, List.append_assoc]
  rfl

theorem toList_text_array (e : Expr) (es : List Expr) (l : Option Loc) :
    (Expr.array (e :: es) l).text.toList =
      '[' :: (e.text.toList ++ Series.moreText (es.map withText) ++ [']']) := by
  have htext : (Expr.array (e :: es) l).text =
      "[" ++ ", ".intercalate (texts (e :: es)) ++ "]" := rfl
  rw [htext, String.toList_append, String.toList_append, toList_intercalate_texts]
  rfl

theorem toList_text_logic (op : Connective) (e : Expr) (es : List Expr) (l : Option Loc) :
    (Expr.logic op (e :: es) l).text.toList =
      '(' :: (e.text.toList ++ joinedText op (es.map withText) ++ [')']) := by
  have htext : (Expr.logic op (e :: es) l).text =
      "(" ++ (" " ++ op.symbol ++ " ").intercalate (texts (e :: es)) ++ ")" := rfl
  rw [htext, String.toList_append, String.toList_append, toList_intercalate_texts, toList_sign]
  rfl

theorem toList_text_math (op : Operator) (a b : Expr) (l : Option Loc) :
    (Expr.math op a b l).text.toList =
      '(' :: (a.text.toList ++ (spaced op.symbol.toList ++ b.text.toList) ++ [')']) := by
  have htext : (Expr.math op a b l).text =
      "(" ++ a.text ++ " " ++ op.symbol ++ " " ++ b.text ++ ")" := rfl
  rw [htext]
  simp only [String.toList_append, spaced, List.cons_append, List.append_assoc]
  rfl

theorem toList_text_compare (r : Relation) (a b : Expr) (l : Option Loc) :
    (Expr.compare r a b l).text.toList =
      a.text.toList ++ (spaced r.symbol.toList ++ b.text.toList) := by
  have htext : (Expr.compare r a b l).text = a.text ++ " " ++ r.symbol ++ " " ++ b.text := rfl
  rw [htext]
  simp only [String.toList_append, spaced, List.cons_append, List.append_assoc]
  rfl

theorem toList_text_not (e : Expr) (l : Option Loc) :
    (Expr.not e l).text.toList = '!' :: '(' :: (e.text.toList ++ [')']) := by
  have htext : (Expr.not e l).text = "!(" ++ e.text ++ ")" := rfl
  rw [htext, String.toList_append, String.toList_append]
  rfl

theorem toList_text_assign (x : String) (e : Expr) (l : Option Loc) :
    (Expr.assign x e l).text.toList = x.toList ++ (spaced ['='] ++ e.text.toList) := by
  have htext : (Expr.assign x e l).text = x ++ " = " ++ e.text := rfl
  rw [htext, String.toList_append, String.toList_append, List.append_assoc]
  rfl

/-! ## Reading -/

/-- The text of the node is read back. -/
def IsReadBack (e : Expr) : Prop := Reads e e.text.toList e.phrase

theorem isReadBack_integer (n : Int) (l : Option Loc) : IsReadBack (.integer n l) := by
  have htext : (Expr.integer n l).text = toString n := rfl
  unfold IsReadBack
  rw [htext, Text.toList_toString_int, phrase]
  by_cases hn : n < 0
  · obtain ⟨m, hm⟩ : ∃ m : Nat, n = -m := ⟨n.natAbs, by omega⟩
    subst hm
    rw [if_pos hn, if_pos hn, Int.natAbs_neg, Int.natAbs_natCast]
    exact reads_negative m l
  · obtain ⟨m, hm⟩ : ∃ m : Nat, n = m := ⟨n.toNat, by omega⟩
    subst hm
    rw [if_neg hn, if_neg hn, Int.natAbs_natCast]
    exact reads_natural m l

theorem forall_withText {P : Expr → List Char → Prop} (es : List Expr)
    (h : ∀ e ∈ es, P e e.text.toList) : ∀ i ∈ es.map withText, P i.1 i.2 := by
  intro i hi
  obtain ⟨e, he, rfl⟩ := List.mem_map.1 hi
  exact h e he

theorem isReadBack_array {es : List Expr} (h : ∀ e ∈ es, IsReadBack e) (l : Option Loc) :
    IsReadBack (.array es l) := by
  unfold IsReadBack
  cases es with
  | nil =>
    rw [toList_text_emptyArray]
    exact reads_emptyArray l
  | cons e es =>
    have hitem : ∀ e' ∈ e :: es, entries.Item e' e'.text.toList := fun e' he' =>
      entries.item_of_reads (h e' he') e'.phrase_mem_kinds
    have hitems := forall_withText es fun e' he' => hitem e' (List.mem_cons_of_mem e he')
    have hreads := reads_array (hitem e List.mem_cons_self) hitems l
    rw [map_fst_withText] at hreads
    rw [toList_text_array]
    exact hreads

theorem isReadBack_call {f : String} {args : List Expr} (hf : IsIdentifier f)
    (h : ∀ a ∈ args, arguments.Item a a.text.toList) (l : Option Loc) :
    IsReadBack (.call f args l) := by
  unfold IsReadBack
  cases args with
  | nil =>
    rw [toList_text_emptyCall]
    exact reads_emptyCall hf l
  | cons a args =>
    have hitems := forall_withText args fun a' ha' => h a' (List.mem_cons_of_mem a ha')
    have hreads := reads_call hf (h a List.mem_cons_self) hitems l
    rw [map_fst_withText] at hreads
    rw [toList_text_call]
    exact hreads

theorem operandsOf_eq_singleton {op : Connective} {e : Expr} (h : ∀ es l, e ≠ .logic op es l) :
    e.operandsOf op = [e] := by
  cases e with
  | logic op' es l =>
    rw [operandsOf, if_neg]
    rintro rfl
    exact h es l rfl
  | _ => rfl

theorem isReadBack_logic {op : Connective} {es : List Expr} (hlength : 2 ≤ es.length)
    (h : ∀ e ∈ es, IsReadBack e) (hop : ∀ e ∈ es, e.operandsOf op = [e]) (l : Option Loc) :
    IsReadBack (.logic op es l) := by
  obtain ⟨e, es, rfl⟩ := List.exists_cons_of_length_pos (by omega : 0 < es.length)
  have hcondition : ∀ e' ∈ e :: es, ReadsCondition e' e'.text.toList := fun e' he' =>
    ⟨e'.phrase, e'.phrase_mem_kinds, h e' he'⟩
  have hne : es.map withText ≠ [] := by
    rintro hnil
    rw [List.map_eq_nil_iff.1 hnil] at hlength
    simp at hlength
  have hitems := forall_withText es fun e' he' =>
    hcondition e' (List.mem_cons_of_mem e he')
  have hreads := reads_logic op (hcondition e List.mem_cons_self) hitems hne
    (by rwa [map_fst_withText]) l
  rw [map_fst_withText] at hreads
  unfold IsReadBack
  rw [toList_text_logic]
  exact hreads

/-- **Every node that scripts can write is read back.** -/
theorem Writable.isReadBack {e : Expr} (h : e.Writable) : e.IsReadBack := by
  induction h with
  | integer n l => exact isReadBack_integer n l
  | string hs l =>
    unfold IsReadBack
    rw [toList_text_string]
    exact reads_string hs l
  | var hx l => exact reads_var hx l
  | @call f args hf hargs hlabels hnamed l ihargs ihnamed =>
    refine isReadBack_call hf (fun a ha => ?_) l
    cases a with
    | assign x e l' =>
      rw [toList_text_assign]
      exact (ihnamed x e l' ha).named (hlabels x e l' ha) e.phrase_mem_kinds l'
    | _ => exact arguments.item_of_reads (ihargs _ ha (fun _ _ _ => nofun)) (phrase_mem_kinds _)
  | array hes l ih => exact isReadBack_array ih l
  | math op ha hb ha' hb' l iha ihb =>
    unfold IsReadBack
    rw [toList_text_math]
    exact reads_math op iha ihb (phrase_mem_operandKinds ha') (phrase_mem_operandKinds hb') l
  | compare r ha hb ha' hb' l iha ihb =>
    unfold IsReadBack
    rw [toList_text_compare]
    exact reads_compare r iha ihb (phrase_mem_operandKinds ha') (phrase_mem_operandKinds hb') l
  | not he l ih =>
    unfold IsReadBack
    rw [toList_text_not]
    exact reads_not (Reads.inside ih (phrase_mem_kinds _)) l
  | logic op hlength hes hop l ih =>
    exact isReadBack_logic hlength ih (fun e he => operandsOf_eq_singleton (hop e he)) l

end Expr

/-! ## Scripts -/

namespace Grammar

/-- The end of the text after the value of the only assignment. -/
theorem settle_assignment (here : Loc) (e : Expr) (l₁ l₂ l₃ : Loc) (x w : Token) :
    settle here .finish [⟨50, .expr e, l₁⟩, ⟨33, .token w, l₂⟩, ⟨9, .token x, l₃⟩] =
      .complete [.assign x.text e (some x.loc)] := by
  have hjoin : settle here .finish [⟨50, .expr e, l₁⟩, ⟨33, .token w, l₂⟩, ⟨9, .token x, l₃⟩] =
      settle here .finish [⟨13, .expr (.assign x.text e (some x.loc)), l₃⟩] :=
    settle_join [⟨50, .expr e, l₁⟩, ⟨33, .token w, l₂⟩, ⟨9, .token x, l₃⟩] []
      (r := .assignment) rfl (by decide) rfl rfl rfl rfl (by decide)
  have hpass : settle here .finish [⟨13, .expr (.assign x.text e (some x.loc)), l₃⟩] =
      settle here .finish [⟨23, .expr (.assign x.text e (some x.loc)), l₃⟩] :=
    settle_single (r := .pass .statement) rfl rfl rfl rfl (by decide) (by decide)
  have hfirst : settle here .finish [⟨23, .expr (.assign x.text e (some x.loc)), l₃⟩] =
      settle here .finish [⟨11, .exprs [.assign x.text e (some x.loc)], l₃⟩] :=
    settle_single (r := .firstStatement) rfl rfl rfl rfl (by decide) (by decide)
  rw [hjoin, hpass, hfirst, settle]
  rfl

/-- A script of one assignment. -/
theorem parseStatements_assignment {x : String} (hx : IsIdentifier x) {e : Expr} {text : List Char}
    {kind : Nonterminal} (hkind : kind ∈ kinds) (h : Reads e text kind) :
    ∃ e' l, parseStatements (x.toList ++ (spaced ['='] ++ text)) = .ok [.assign x e' l] ∧
      e'.bare = e.bare := by
  have hrises : ∀ kind ∈ kinds, rises 33 kind [.finish] 50 = true := by decide
  have hconsumes : Consumes [] (x.toList ++ (spaced ['='] ++ text)) [] fun st => ∃ w l w' l',
      w.text = String.ofList x.toList ∧
      Completes [⟨33, .token w', l'⟩, ⟨9, .token w, l⟩] [.finish] 50 (Says e) st := by
    refine Consumes.append (consumes_name hx (rfl : (row 0).shifts.lookup .name = some 9)
      (endsWord_cons rfl _)) fun st₁ hst₁ => ?_
    obtain ⟨w, l, hw, rfl⟩ := hst₁
    refine Consumes.append (consumes_equal (k := 33) (by rfl) _) fun st₂ hst₂ => ?_
    obtain ⟨w', l', -, rfl⟩ := hst₂
    exact Consumes.mono (h.consumes (by decide : (33 : State) ∈ operandStates) (hrises kind hkind)
      endsWord_nil) fun st₃ hst₃ => ⟨w, l, w', l', hw, hst₃⟩
  obtain ⟨st, here, last, ⟨w, l, w', l', hw, m, l'', ⟨e', rfl, he'⟩, hst⟩, hparse⟩ :=
    hconsumes ⟨1, 1⟩ ⟨1, 1⟩
  rw [List.append_nil] at hparse
  refine ⟨e', some w.loc, ?_, he'⟩
  rw [parseStatements, hparse, parseFrom, List.isEmpty_nil, if_pos rfl, takeEnd,
    (hst .finish (by simp)).2, settle_assignment, hw, String.ofList_toList]

end Grammar

namespace Script

theorem parse_eq_ok {text : String} {statements : List Expr}
    (hparse : parseStatements text.toList = .ok statements)
    (hellipsis : misplacedEllipsisIn? statements = none) :
    ∃ s, parse text = .ok s ∧ s.statements = statements := by
  rw [parse, hparse]
  dsimp only
  rw [hellipsis]
  exact ⟨_, rfl, rfl⟩

/-- An assignment of what the text is read as. -/
theorem parse_assignment {e : Expr} {text : String} {kind : Nonterminal} (hkind : kind ∈ kinds)
    (h : Reads e text.toList kind) :
    ∃ s e' l, parse ("x = " ++ text) = .ok s ∧ s.statements = [.assign "x" e' l] ∧
      e'.bare = e.bare := by
  have htext : ("x = " ++ text).toList = "x".toList ++ (spaced ['='] ++ text.toList) := by
    rw [String.toList_append]
    rfl
  obtain ⟨e', l, hparse, he'⟩ := parseStatements_assignment isIdentifier_x hkind h
  rw [← htext] at hparse
  obtain ⟨s, hs, hstatements⟩ := parse_eq_ok hparse rfl
  exact ⟨s, e', l, hs, hstatements, he'⟩

/-- **The text of an expression is read back as the expression**, up to places, if scripts can write
it. -/
theorem parse_text {e : Expr} (h : e.Writable) :
    ∃ s e' l, parse ("x = " ++ e.text) = .ok s ∧ s.statements = [.assign "x" e' l] ∧
      e'.bare = e.bare :=
  parse_assignment e.phrase_mem_kinds h.isReadBack

/-- The condition `(f(n = (1 - -2), ["s", a]) == -3 && !((a || b)))`. -/
def printedCondition : Expr :=
  .logic .and
    [.compare .eq
      (.call "f"
        [.assign "n" (.math .sub (.integer 1 none) (.integer (-2) none) none) none,
          .array [.string "s" none, .var "a" none] none] none)
      (.integer (-3) none) none,
      .not (.logic .or [.var "a" none, .var "b" none] none) none] none

theorem writable_printedCondition : printedCondition.Writable := by
  have ha : IsIdentifier "a" := ⟨⟨'a', [], rfl, by decide, by simp⟩, by decide, by decide⟩
  have hb : IsIdentifier "b" := ⟨⟨'b', [], rfl, by decide, by simp⟩, by decide, by decide⟩
  have hf : IsIdentifier "f" := ⟨⟨'f', [], rfl, by decide, by simp⟩, by decide, by decide⟩
  have hn : IsIdentifier "n" := ⟨⟨'n', [], rfl, by decide, by simp⟩, by decide, by decide⟩
  have harray : (Expr.array [.string "s" none, .var "a" none] none).Writable := by
    refine .array ?_ none
    simpa using ⟨.string (by simp) none, .var ha none⟩
  have hcall : (Expr.call "f"
      [.assign "n" (.math .sub (.integer 1 none) (.integer (-2) none) none) none,
        .array [.string "s" none, .var "a" none] none] none).Writable := by
    refine .call hf ?_ ?_ ?_ none
    · simpa using harray
    · rintro x e l h
      obtain ⟨rfl, -, -⟩ := by simpa using h
      exact hn
    · rintro x e l h
      obtain ⟨-, rfl, -⟩ := by simpa using h
      exact .math .sub (.integer 1 none) (.integer (-2) none) rfl rfl none
  have hor : (Expr.logic .or [.var "a" none, .var "b" none] none).Writable := by
    refine .logic .or (by decide) ?_ (by simp) none
    simpa using ⟨.var ha none, .var hb none⟩
  refine .logic .and (by decide) ?_ (by simp) none
  simpa using ⟨.compare .eq hcall (.integer (-3) none) rfl rfl none, .not hor none⟩

/-- This condition is read back. -/
theorem parse_text_printedCondition :
    printedCondition.Writable ∧
      printedCondition.text = "(f(n = (1 - -2), [\"s\", a]) == -3 && !((a || b)))" ∧
      ∃ s e' l, parse ("x = " ++ printedCondition.text) = .ok s ∧
        s.statements = [.assign "x" e' l] ∧ e'.bare = printedCondition.bare :=
  ⟨writable_printedCondition, by decide, parse_text writable_printedCondition⟩

end Script

end AchievementLang

import AchievementLang.Proofs.Compile.Rows
import AchievementLang.Proofs.Eval.Inlining
import AchievementLang.Proofs.Grammar.Roundtrip

/-!
# Displayed rows read back

The text that a row is displayed as is a condition of a script, and this condition compiles to the
row (`Script.conditionText_display`), unless the row accumulates or does not compare memory.
`Tells functions text row` says that the text is read as a condition that is a value and has this
row alone. Operands are displayed as calls with the address in base sixteen or as numbers
(`tellsField_displayAs`), two of them make a comparison (`tells_comparison`), and a condition
function that is displayed around a condition changes its row as the flag and the hit count of the
displayed row ask (`Tells.displayHits`, `Tells.displayFlag`).
-/

namespace AchievementLang

open Wire Grammar

namespace Expr

/-! ## Nodes that may stand anywhere -/

/-- The node has the property wherever it stands. -/
def Anywhere (e : Expr) (P : Expr → Prop) : Prop := ∀ e', e'.bare = e.bare → P e'

variable {P : Expr → Prop} {a b : Expr} {l : Option Loc}

theorem anywhere_integer {n : Int} (h : ∀ l', P (.integer n l')) : (integer n l).Anywhere P := by
  intro e' he'
  cases e' with
  | integer m l' =>
    cases he'
    exact h l'
  | _ => cases he'

theorem anywhere_compare {r : Relation}
    (h : a.Anywhere fun a' => b.Anywhere fun b' => ∀ l', P (.compare r a' b' l')) :
    (compare r a b l).Anywhere P := by
  intro e' he'
  cases e' with
  | compare r' a' b' l' =>
    simp only [bare, compare.injEq] at he'
    obtain ⟨rfl, ha', hb', -⟩ := he'
    exact h a' ha' b' hb' l'
  | _ => cases he'

theorem anywhere_call_one {f : String} (h : a.Anywhere fun a' => ∀ l', P (.call f [a'] l')) :
    (call f [a] l).Anywhere P := by
  intro e' he'
  cases e' with
  | call f' args l' =>
    simp only [bare, bareAll_eq_map, call.injEq] at he'
    obtain ⟨rfl, hargs, -⟩ := he'
    obtain ⟨a', rfl, ha'⟩ := List.map_eq_singleton_iff.1 hargs
    exact h a' ha' l'
  | _ => cases he'

theorem anywhere_call_two {f : String}
    (h : a.Anywhere fun a' => b.Anywhere fun b' => ∀ l', P (.call f [a', b'] l')) :
    (call f [a, b] l).Anywhere P := by
  intro e' he'
  cases e' with
  | call f' args l' =>
    simp only [bare, bareAll_eq_map, call.injEq] at he'
    obtain ⟨rfl, hargs, -⟩ := he'
    obtain ⟨a', args', rfl, ha', hargs'⟩ := List.map_eq_cons_iff.1 hargs
    obtain ⟨b', rfl, hb'⟩ := List.map_eq_singleton_iff.1 hargs'
    exact h a' ha' b' hb' l'
  | _ => cases he'

end Expr

/-- The functions of the language have names that scripts can write. -/
theorem Function.isIdentifier_name {f : Function} (hf : f.isBuiltin = true) :
    IsIdentifier f.name := by
  have h : ∀ f ∈ all, f.name.toList.head?.any startsName = true ∧
      f.name.toList.tail.all continuesName = true ∧ f.name ≠ "function" ∧ f.name ≠ "return" := by
    decide
  obtain ⟨hhead, htail, hkeyword⟩ := h f (mem_all hf)
  refine ⟨?_, hkeyword⟩
  cases hname : f.name.toList with
  | nil =>
    rw [hname] at hhead
    cases hhead
  | cons c cs =>
    rw [hname] at hhead htail
    exact ⟨c, cs, rfl, by simpa using hhead, by simpa using htail⟩

namespace Compile

variable {functions : FunctionTable} {text : String} {e a b : Expr} {l : Option Loc}

/-! ## Operands -/

/-- The text is read as an operand that is a value and denotes the field. -/
def TellsField (functions : FunctionTable) (text : String) (f : Wire.Field) : Prop :=
  ∃ e, Reads e text.toList .atom ∧
    e.Anywhere fun e' => e'.IsReduced ∧ operandField functions e' = .ok f

theorem operandField_word (w : Word) (l : Option Loc) :
    operandField functions (.integer w.val l) = .ok (.literal w) := by
  rw [operandField, Word.ofInt?_val]

theorem operandField_call (hfunctions : functions.Intact) {f : Function} (hf : f.isOperand = true)
    (args : List Expr) (l : Option Loc) :
    operandField functions (.call f.name args l) = callField functions (.call f.name args l) := by
  have hbuiltin : f.isBuiltin = true := by cases f <;> first | rfl | cases hf
  refine if_pos ?_
  rw [denotesOperand, hfunctions.language hbuiltin]
  exact hf

theorem callField_accessor (hfunctions : functions.Intact) (s : Size) (a : Word)
    (l l' : Option Loc) :
    callField functions (.call s.name [.integer a.val l] l') = .ok (.memory s a) := by
  have hname : functions.get? s.name = some (.accessor s) :=
    hfunctions.language (f := .accessor s) rfl
  rw [callField, hname]
  simp [memoryAt]

theorem callField_prev (hfunctions : functions.Intact) (e : Expr) (l : Option Loc) :
    callField functions (.call "prev" [e] l) = (callField functions e).map previousOf := by
  have hname : functions.get? "prev" = some .prev := hfunctions.language (f := .prev) rfl
  rw [callField, hname]

/-- A call with one argument is read as such. -/
theorem reads_call_one {f : Function} (hf : f.isBuiltin = true) {arg : List Char}
    {kind : Nonterminal} (hkind : kind ∈ kinds) (h : Reads e arg kind) :
    Reads (.call f.name [e] none) (f.name.toList ++ '(' :: (arg ++ [')'])) .atom := by
  have hitems : ∀ i ∈ ([] : List (Expr × List Char)), arguments.Item i.1 i.2 := by simp
  have hreads := reads_call (Function.isIdentifier_name hf) (arguments.item_of_reads h hkind) hitems
    none
  simpa [Series.moreText] using hreads

/-- The text of a field is an operand, with the address in base sixteen. -/
theorem tellsField_displayAs (hfunctions : functions.Intact) {f : Wire.Field} (hf : f.WellFormed)
    (format : NumberFormat) : TellsField functions (f.displayAs format) f := by
  have haccess (s : Size) (a : Word) :
      Reads (.call s.name [.integer a.val none] none)
        (s.name ++ "(0x" ++ String.ofList (Text.upperHexPadded 6 a) ++ ")").toList .atom := by
    have hreads := reads_call_one (f := .accessor s) rfl (by decide)
      (reads_hexadecimal 6 a.val none)
    simpa [Function.name] using hreads
  obtain ⟨w, rfl⟩ | ⟨s, a, rfl⟩ | ⟨s, a, rfl⟩ := hf.cases
  · refine ⟨.integer w.val none, ?_, Expr.anywhere_integer fun l =>
      ⟨.integer _ l, operandField_word w l⟩⟩
    cases format with
    | decimal =>
      simpa [Field.displayAs, Field.display, Field.literal] using reads_natural w.val none
    | hexadecimal => simpa [Field.displayAs, Field.literal] using reads_hexadecimal 2 w.val none
  · refine ⟨_, haccess s a, Expr.anywhere_call_one (Expr.anywhere_integer fun l l' => ?_)⟩
    exact ⟨.accessor s a l l', (operandField_call hfunctions (f := .accessor s) rfl _ _).trans
      (callField_accessor hfunctions s a l l')⟩
  · refine ⟨.call "prev" [.call s.name [.integer a.val none] none] none, ?_, ?_⟩
    · have hreads := reads_call_one (f := .prev) rfl (by decide) (haccess s a)
      simpa [Function.name, Field.displayAs, Field.display, Field.previous] using hreads
    · refine Expr.anywhere_call_one (Expr.anywhere_call_one
        (Expr.anywhere_integer fun l l' l'' => ⟨.prev s a l l' l'', ?_⟩))
      refine (operandField_call hfunctions (f := .prev) rfl _ _).trans ?_
      refine (callField_prev hfunctions _ l'').trans ?_
      rw [callField_accessor hfunctions]
      rfl

/-! ## Comparisons -/

/-- The text is read as a condition that is a value and has the row. -/
def Tells (functions : FunctionTable) (text : String) (row : Requirement) : Prop :=
  ∃ e, ReadsCondition e text.toList ∧
    e.Anywhere fun e' => e'.IsReduced ∧ conditionRows functions false e' = .ok [row]

theorem sumRows_one {op : Relation} {left right : Wire.Field}
    (ha : operandField functions a = .ok left) (hnumber : a.integer? = none) (l : Option Loc) :
    sumRows functions op [⟨true, a⟩] right l =
      .ok [{ left := left, operator := some op, right := right }] := by
  have hadded : operandsOf true [⟨true, a⟩] = [a] := by
    simp [operandsOf, Summand.isOperand, hnumber]
  have hsubtracted : operandsOf false [⟨true, a⟩] = [] := by simp [operandsOf]
  refine sumRows_eq_ok_iff.2 ⟨[left], [], ?_, ?_, rfl⟩
  · rw [hadded, operandFields, ha]
    rfl
  · rw [hsubtracted]
    rfl

theorem exists_call_of_operandField {f : Wire.Field} (h : operandField functions e = .ok f)
    (hf : f.isMemory = true) : ∃ name args l, e = .call name args l := by
  cases e with
  | call name args l => exact ⟨name, args, l, rfl⟩
  | integer n l =>
    rw [operandField] at h
    split at h <;> cases h
    cases hf
  | _ => cases h

theorem nonneg_of_operandField {n : Int} {f : Wire.Field}
    (h : operandField functions (.integer n l) = .ok f) : 0 ≤ n := by
  rw [operandField] at h
  split at h
  next w hw => exact Word.val_of_ofInt? hw ▸ Int.natCast_nonneg w.val
  next => cases h

/-- The row of a comparison of memory with a field. -/
theorem comparisonRows_of_operands {op : Relation} {left right : Wire.Field}
    (ha : operandField functions a = .ok left) (hleft : left.isMemory = true)
    (hb : operandField functions b = .ok right) (l : Option Loc) :
    comparisonRows functions op a b l =
      .ok [{ left := left, operator := some op, right := right }] := by
  obtain ⟨name, args, l', rfl⟩ := exists_call_of_operandField ha hleft
  have hsum : sumRows functions op [⟨true, .call name args l'⟩] right l = _ := sumRows_one ha rfl l
  have hunordered : comparisonRows functions op (.call name args l') b l =
      orderedRows functions op (.call name args l') b l := rfl
  have hsummands : summands true (.call name args l') = .ok [⟨true, .call name args l'⟩] := rfl
  rw [hunordered, orderedRows, hsummands]
  cases b with
  | integer n lb =>
    have hn := nonneg_of_operandField hb
    simp [constantOf, Summand.constant, Summand.isOperand, Expr.integer?, hb, hsum, hn]
  | _ => simp [constantOf, Summand.constant, hb, hsum]

/-- The text of a row without flag and hit count is a comparison. -/
theorem tells_comparison (hfunctions : functions.Intact) (op : Relation)
    {left right : Wire.Field} (hleft : left.WellFormed) (hmemory : left.isMemory = true)
    (hright : right.WellFormed) (format : NumberFormat) :
    Tells functions
      (({ left := left, operator := some op, right := right } : Requirement).displayComparison
        format)
      { left := left, operator := some op, right := right } := by
  obtain ⟨a, hreads, ha⟩ := tellsField_displayAs hfunctions hleft format
  obtain ⟨b, hreads', hb⟩ := tellsField_displayAs hfunctions hright format
  refine ⟨.compare op a b none, ⟨.comparison, by decide, ?_⟩, Expr.anywhere_compare
    fun a' ha' b' hb' l => ?_⟩
  · have hcompare := reads_compare op hreads hreads' (by decide) (by decide) none
    simpa [Requirement.displayComparison, spaced] using hcompare
  · obtain ⟨hreduced, hfield⟩ := ha a' ha'
    obtain ⟨hreduced', hfield'⟩ := hb b' hb'
    refine ⟨.compare op hreduced hreduced' l, ?_⟩
    rw [conditionRows]
    exact comparisonRows_of_operands hfield hmemory hfield' l

/-! ## Flags and hit counts -/

variable {row changed : Requirement} {f : Function}

/-- A condition function changes the row of its last argument. -/
theorem conditionRows_call (hfunctions : functions.Intact)
    (hf : f.isAround = true ∨ f = .repeated) {args : List Expr} {argLoc : Option Loc}
    (hargs : lastRows functions args = .ok ([row], argLoc))
    (hrow : row.flag.isAccumulator = false) (hchanged : modifyRow f args row = .ok changed)
    (l : Option Loc) : conditionRows functions false (.call f.name args l) = .ok [changed] := by
  have hmodify : modifyRows f args [row] argLoc = .ok [changed] := by
    simp [modifyRows, hrow, hchanged]
  have hbuiltin : f.isBuiltin = true := by
    obtain hf | rfl := hf
    · exact Function.isBuiltin_of_isAround hf
    · rfl
  rw [conditionRows, if_neg Bool.false_ne_true, hfunctions.language hbuiltin]
  cases f with
  | once | never | pausing | repeated =>
    refine (if_pos rfl).trans ?_
    rw [hargs]
    exact hmodify
  | _ => simp [Function.isAround] at hf

/-- A condition function around a condition. -/
theorem Tells.around (hfunctions : functions.Intact) (h : Tells functions text row)
    (hrow : row.flag.isAccumulator = false) (hf : f.isAround = true)
    (hchanged : ∀ args, modifyRow f args row = .ok changed) :
    Tells functions (f.name ++ "(" ++ text ++ ")") changed := by
  obtain ⟨e, ⟨kind, hkind, hreads⟩, he⟩ := h
  refine ⟨.call f.name [e] none, ⟨.atom, by decide, ?_⟩, Expr.anywhere_call_one fun e' he' l => ?_⟩
  · have hcall := reads_call_one (Function.isBuiltin_of_isAround hf) hkind hreads
    simpa using hcall
  · obtain ⟨hreduced, hrows⟩ := he e' he'
    have hlast : lastRows functions [e'] = .ok ([row], e'.loc) := by rw [lastRows, hrows]
    exact ⟨.around f hf hreduced l,
      conditionRows_call hfunctions (.inl hf) hlast hrow (hchanged [e']) l⟩

theorem Tells.repeated (hfunctions : functions.Intact) (h : Tells functions text row)
    (hrow : row.flag.isAccumulator = false) {n : Nat} (hn : 1 ≤ n) :
    Tells functions ("repeated(" ++ toString n ++ ", " ++ text ++ ")") { row with hits := n } := by
  obtain ⟨e, ⟨kind, hkind, hreads⟩, he⟩ := h
  refine ⟨.call "repeated" [.integer n none, e] none, ⟨.atom, by decide, ?_⟩,
    Expr.anywhere_call_two (Expr.anywhere_integer fun l e' he' l' => ?_)⟩
  · have hcount := arguments.item_of_reads (reads_natural n none) (by decide)
    have hitems : ∀ i ∈ [(e, text.toList)], arguments.Item i.1 i.2 :=
      List.forall_mem_singleton.2 (arguments.item_of_reads hreads hkind)
    have hcall := reads_call (Function.isIdentifier_name (f := .repeated) rfl) hcount hitems none
    simpa [Function.name, Series.moreText] using hcall
  · obtain ⟨hreduced, hrows⟩ := he e' he'
    have hlast : lastRows functions [.integer n l, e'] = .ok ([row], e'.loc) := by
      rw [lastRows, lastRows, hrows]
    exact ⟨.repeated (by omega) hreduced l l',
      conditionRows_call hfunctions (.inr rfl) hlast hrow rfl l'⟩

theorem Tells.displayHits (hfunctions : functions.Intact) (h : Tells functions text row)
    (hrow : row.flag.isAccumulator = false) (hzero : row.hits = 0) (n : Nat) :
    Tells functions (Requirement.displayHits n text) { row with hits := n } := by
  unfold Requirement.displayHits
  split
  next hn =>
    subst hn
    rwa [← hzero]
  split
  next hn =>
    subst hn
    exact h.around hfunctions hrow (f := .once) rfl fun _ => rfl
  next => exact h.repeated hfunctions hrow (by omega)

theorem Tells.displayFlag (hfunctions : functions.Intact) (h : Tells functions text row)
    (hnone : row.flag = .none) {flag : Flag}
    (hflag : flag = .none ∨ flag = .resetIf ∨ flag = .pauseIf) :
    Tells functions (Requirement.displayFlag flag text) { row with flag := flag } := by
  have hrow : row.flag.isAccumulator = false := by
    rw [hnone]
    rfl
  obtain rfl | rfl | rfl := hflag
  · have hsame : { row with flag := Flag.none } = row := by rw [← hnone]
    rwa [hsame]
  · exact h.around hfunctions hrow (f := .never) rfl fun _ => rfl
  · exact h.around hfunctions hrow (f := .pausing) rfl fun _ => rfl

/-- A row that compares memory, with no other flag than those to reset and to pause. -/
theorem tells_display (hfunctions : functions.Intact) (op : Relation) {left right : Wire.Field}
    (hleft : left.WellFormed) (hmemory : left.isMemory = true) (hright : right.WellFormed)
    (hits : Nat) {flag : Flag} (hflag : flag = .none ∨ flag = .resetIf ∨ flag = .pauseIf)
    (format : NumberFormat) :
    Tells functions (Requirement.display format ⟨left, some op, right, hits, flag⟩)
      ⟨left, some op, right, hits, flag⟩ :=
  ((tells_comparison hfunctions op hleft hmemory hright format).displayHits hfunctions rfl rfl
    hits).displayFlag hfunctions rfl hflag

end Compile

namespace Wire

/-! ## Rows that scripts can write -/

/-- The row compares memory with memory or a literal, and has no other flag than those to reset and
to pause. -/
structure Requirement.IsWritable (r : Requirement) : Prop where
  left : r.left.isMemory = true
  operator : r.operator.isSome = true
  right : r.right.kind ≠ .none
  sizes : ∀ f ∈ [r.left, r.right], f.isMemory = true → f.size.isSome = true
  flag : r.flag = .none ∨ r.flag = .resetIf ∨ r.flag = .pauseIf

/-- A field with a size that it has no use for is written like one without. -/
theorem Field.exists_wellFormed {f : Field} (hkind : f.kind ≠ .none)
    (hsize : f.isMemory = true → f.size.isSome = true) :
    ∃ g : Field, g.WellFormed ∧ g.isMemory = f.isMemory ∧ g.wire = f.wire ∧
      ∀ format, g.displayAs format = f.displayAs format := by
  obtain ⟨kind, size, value⟩ := f
  cases kind with
  | none => exact absurd rfl hkind
  | literal => exact ⟨.literal value, trivial, rfl, rfl, fun format => by cases format <;> rfl⟩
  | memory =>
    obtain ⟨s, rfl⟩ := Option.isSome_iff_exists.1 (hsize rfl)
    exact ⟨.memory s value, trivial, rfl, rfl, fun _ => rfl⟩
  | previous =>
    obtain ⟨s, rfl⟩ := Option.isSome_iff_exists.1 (hsize rfl)
    exact ⟨.previous s value, trivial, rfl, rfl, fun _ => rfl⟩

theorem Field.kind_ne_none {f : Field} (h : f.isMemory = true) : f.kind ≠ .none := by
  intro hkind
  rw [isMemory, hkind] at h
  cases h

end Wire

namespace Script

open Compile

/-- **What a row is displayed as compiles to the row.** The text is read as a condition that is a
value already in a fresh scope, and the condition is the row on the wire. -/
theorem conditionText_display {limit : Int} (hlimit : 1 ≤ limit) {r : Requirement}
    (hr : r.IsWritable) (format : NumberFormat) :
    ∃ s e l t, parse ("x = " ++ r.display format) = .ok s ∧ s.statements = [.assign "x" e l] ∧
      (({} : Scope).reduce limit e).run {} = (.ok e, t) ∧
      conditionText t.functions e = .ok r.wire := by
  obtain ⟨left, operator, right, hits, flag⟩ := r
  obtain ⟨hmemory, hoperator, hkind, hsizes, hflag⟩ := hr
  obtain ⟨hleft, hright⟩ : _ ∧ _ := ⟨hsizes left (by simp), hsizes right (by simp)⟩
  obtain ⟨op, rfl⟩ := Option.isSome_iff_exists.1 hoperator
  obtain ⟨left', hleft', hmemory', hwire, hdisplay⟩ :=
    Field.exists_wellFormed (Field.kind_ne_none hmemory) hleft
  obtain ⟨right', hright', -, hwire', hdisplay'⟩ := Field.exists_wellFormed hkind hright
  obtain ⟨e₀, ⟨kind, hkind, hreads⟩, he₀⟩ :=
    tells_display FunctionTable.intact_initial op hleft' (hmemory'.trans hmemory) hright' hits
      hflag format
  obtain ⟨s, e, l, hparse, hstatements, hbare⟩ := parse_assignment hkind hreads
  obtain ⟨hreduced, hrows⟩ := he₀ e hbare
  have hdepth : ({} : Scope).depth < limit := Int.lt_of_lt_of_le Int.zero_lt_one hlimit
  obtain ⟨inner, n, hinner, -⟩ := Scope.exists_inner hdepth
  obtain ⟨t, hrun, hfunctions, -⟩ :=
    hreduced.gives FunctionTable.intact_initial hinner {} (.refl {})
  refine ⟨s, e, l, t, ?_, hstatements, hrun, ?_⟩
  · simpa [Requirement.display, Requirement.displayComparison, hdisplay, hdisplay'] using hparse
  · have hrow : Group.wire [⟨left', some op, right', hits, flag⟩] =
        Requirement.wire ⟨left, some op, right, hits, flag⟩ := by
      simp [Group.wire, Requirement.wire, hwire, hwire']
    rw [← hfunctions, conditionText, ← hrow]
    exact congrArg (Except.map Group.wire) hrows

/-- A row with calls inside each other in its text. -/
def displayedRow : Requirement where
  left := .previous .word 0xab12
  operator := some .ge
  right := .literal 0xffffffff
  hits := 3
  flag := .resetIf

/-- The text compiles to the row again. -/
theorem conditionText_display_displayedRow :
    displayedRow.display .hexadecimal = "never(repeated(3, prev(word(0x00AB12)) >= 0xFFFFFFFF))" ∧
      displayedRow.wire = "R:d0x 00ab12>=4294967295.3." ∧
      ∃ s e l t, parse ("x = " ++ displayedRow.display .hexadecimal) = .ok s ∧
        s.statements = [.assign "x" e l] ∧ (({} : Scope).reduce 1 e).run {} = (.ok e, t) ∧
        conditionText t.functions e = .ok displayedRow.wire :=
  ⟨by decide, by decide,
    conditionText_display (by decide) ⟨rfl, rfl, by decide, by decide, .inr (.inl rfl)⟩
      .hexadecimal⟩

end Script

end AchievementLang

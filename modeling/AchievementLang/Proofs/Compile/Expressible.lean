import AchievementLang.Proofs.Compilation.Groups
import AchievementLang.Proofs.Compile.Writing
import Mathlib.Tactic.Ring

/-!
# Which comparisons can be expressed

Rows compare a sum of memory with a number of 32 bits or with one read of memory, so not every
comparison of sums can be written as rows. `Expr.IsExpressible` says which ones can, in terms of the
sides alone: the number that the integers on the left add up to (`Expr.constantSum`), and the signs
with which memory is read there (`Expr.Contains`).

Compilation accepts exactly these comparisons (`Compile.comparison_accepted_iff`), and refuses all
others as a mismatch before any row is written. What the signs and the integers of a side come to is
read off its summands (`Compile.exists_summands`). From there each function of the compiler that
makes rows accepts the sides for which it has a place (`Compile.AcceptsIf`).
-/

namespace AchievementLang

namespace Expr

variable (functions : FunctionTable)

/-- The node is a read of memory as evaluation leaves it: a call of an accessor with an address of
32 bits, or of `prev` with such a call. -/
inductive IsRead : Expr → Prop
  | accessor {name : String} {s : Wire.Size} (h : functions.get? name = some (.accessor s))
      (address : Wire.Word) (l l' : Option Loc) : IsRead (.call name [.integer address.val l] l')
  | prev {name accessor : String} {s : Wire.Size} (h : functions.get? name = some .prev)
      (ha : functions.get? accessor = some (.accessor s)) (address : Wire.Word)
      (l l' l'' : Option Loc) :
      IsRead (.call name [.call accessor [.integer address.val l] l'] l'')

/-- The node is an integer, a read of memory, or a sum or difference of such nodes, of any shape. -/
inductive IsSum : Expr → Prop
  | integer (n : Int) (l : Option Loc) : IsSum (.integer n l)
  | read {e : Expr} (h : IsRead functions e) : IsSum e
  | add {a b : Expr} (ha : IsSum a) (hb : IsSum b) (l : Option Loc) : IsSum (.math .add a b l)
  | sub {a b : Expr} (ha : IsSum a) (hb : IsSum b) (l : Option Loc) : IsSum (.math .sub a b l)

/-- Memory is read somewhere in the sum, with a plus sign if `added`, else with a minus sign. -/
def Contains (added : Bool) : Expr → Prop
  | .math .add a b _ => Contains added a ∨ Contains added b
  | .math .sub a b _ => Contains added a ∨ Contains (!added) b
  | e => added = true ∧ IsRead functions e

/-- The sum of the integers in the node, with their signs. -/
def constantSum : Expr → Int
  | .integer n _ => n
  | .math .add a b _ => constantSum a + constantSum b
  | .math .sub a b _ => constantSum a - constantSum b
  | _ => 0

/-- A comparison of the sums can be written as rows. -/
inductive IsExpressible (left right : Expr) : Prop
  /-- Numbers are compared with numbers. -/
  | constant {n : Int} {l : Option Loc} (hright : right = .integer n l)
      (hleft : ∀ added, ¬ left.Contains functions added)
  /-- The numbers of the left side leave a number of 32 bits on the right. -/
  | limit {n : Int} {l : Option Loc} (hright : right = .integer n l)
      (hrange : 0 ≤ n - left.constantSum ∧ n - left.constantSum ≤ 2 ^ 32 - 1)
      (hleft : left.Contains functions true)
  /-- Memory is compared with one read of memory. -/
  | read (hright : right.IsRead functions) (hconstant : left.constantSum = 0)
      (hleft : left.Contains functions true)

/-- The sides of a comparison, where a number on the left changes sides with what is no number. -/
def exchanged (left right : Expr) : Expr × Expr :=
  if left.integer?.isSome && right.integer?.isNone then (right, left) else (left, right)

variable {functions} {e : Expr}

theorem IsRead.integer?_eq_none (h : e.IsRead functions) : e.integer? = none := by
  cases h <;> rfl

theorem IsRead.contains_iff (h : e.IsRead functions) (added : Bool) :
    e.Contains functions added ↔ added = true := by
  cases h with
  | accessor hs address l l' => exact and_iff_left (.accessor hs address l l')
  | prev hp ha address l l' l'' => exact and_iff_left (.prev hp ha address l l' l'')

theorem not_contains_integer (added : Bool) (n : Int) (l : Option Loc) :
    ¬ (Expr.integer n l).Contains functions added := by
  rintro ⟨-, ⟨⟩⟩

end Expr

namespace Compile

open Wire AchievementLang.Expr

variable {functions : FunctionTable} {e left right : Expr}

/-! ## Summands -/

theorem constantOf_append (ss ss' : List Summand) :
    constantOf (ss ++ ss') = constantOf ss + constantOf ss' := by
  induction ss with
  | nil => exact (zero_add _).symm
  | cons s ss ih =>
    change s.constant + constantOf (ss ++ ss') = s.constant + constantOf ss + constantOf ss'
    rw [ih, add_assoc]

theorem operandsOf_append (added : Bool) (ss ss' : List Summand) :
    operandsOf added (ss ++ ss') = operandsOf added ss ++ operandsOf added ss' := by
  rw [operandsOf, List.filter_append, List.map_append, operandsOf, operandsOf]

/-- What the summands of a side tell about it. The side itself is added, or else subtracted. -/
structure Summarizes (functions : FunctionTable) (added : Bool) (e : Expr) (ss : List Summand) :
    Prop where
  constant : constantOf ss = if added then e.constantSum else -e.constantSum
  /-- The signs of the reads turn around where the side is subtracted. -/
  operands : ∀ sign, operandsOf sign ss ≠ [] ↔ e.Contains functions (sign == added)
  reads : ∀ sign, ∀ x ∈ operandsOf sign ss, x.IsRead functions

theorem summarizes_read (he : e.IsRead functions) (added : Bool) :
    Summarizes functions added e [⟨added, e⟩] := by
  have hoperands (sign : Bool) :
      operandsOf sign [⟨added, e⟩] = if added == sign then [e] else [] := by
    simp only [operandsOf, List.filter_cons, List.filter_nil, Summand.isOperand,
      he.integer?_eq_none, Option.isNone_none, Bool.true_and]
    split <;> rfl
  refine ⟨?_, fun sign => ?_, fun sign x hx => ?_⟩
  · cases he <;> cases added <;> rfl
  · rw [hoperands, he.contains_iff]
    cases sign <;> cases added <;> simp
  · rw [hoperands] at hx
    split at hx
    · exact List.mem_singleton.1 hx ▸ he
    · cases hx

/-- The signs of the second operand turn around in a difference. -/
theorem Summarizes.append {op : Operator} {a b : Expr} {l : Option Loc} {added added' : Bool}
    {ss ss' : List Summand} (hss : Summarizes functions added a ss)
    (hss' : Summarizes functions added' b ss')
    (hop : op = .add ∧ added' = added ∨ op = .sub ∧ added' = !added) :
    Summarizes functions added (.math op a b l) (ss ++ ss') := by
  refine ⟨?_, fun sign => ?_, fun sign x hx => ?_⟩
  · rw [constantOf_append, hss.constant, hss'.constant]
    obtain ⟨rfl, hadded⟩ | ⟨rfl, hadded⟩ := hop <;> rw [hadded] <;> cases added <;>
      simp [constantSum] <;> ring
  · have hor : operandsOf sign (ss ++ ss') ≠ [] ↔
        operandsOf sign ss ≠ [] ∨ operandsOf sign ss' ≠ [] := by
      rw [operandsOf_append, Ne, List.append_eq_nil_iff, not_and_or]
    rw [hor, hss.operands, hss'.operands]
    obtain ⟨rfl, hadded⟩ | ⟨rfl, hadded⟩ := hop <;> rw [hadded]
    · rfl
    · cases sign <;> cases added <;> rfl
  · rw [operandsOf_append] at hx
    exact (List.mem_append.1 hx).elim (hss.reads sign x) (hss'.reads sign x)

/-- A sum has summands, and they tell about it. -/
theorem exists_summands (he : e.IsSum functions) (added : Bool) :
    ∃ ss, summands added e = .ok ss ∧ Summarizes functions added e ss := by
  induction he generalizing added with
  | integer n l =>
    refine ⟨[⟨added, .integer n l⟩], rfl, ?_, fun sign => ?_, fun sign x hx => by cases hx⟩
    · cases added <;> simp [constantOf, Summand.constant, constantSum]
    · exact iff_of_false (fun h => h rfl) (not_contains_integer _ n l)
  | @read e he =>
    have hsummands : summands added e = .ok [⟨added, e⟩] := by cases he <;> rfl
    exact ⟨_, hsummands, summarizes_read he added⟩
  | add ha hb l iha ihb =>
    obtain ⟨ss, hsummands, hss⟩ := iha added
    obtain ⟨ss', hsummands', hss'⟩ := ihb added
    refine ⟨ss ++ ss', ?_, hss.append hss' (.inl ⟨rfl, rfl⟩)⟩
    rw [summands, hsummands, hsummands']
  | sub ha hb l iha ihb =>
    obtain ⟨ss, hsummands, hss⟩ := iha added
    obtain ⟨ss', hsummands', hss'⟩ := ihb (!added)
    refine ⟨ss ++ ss', ?_, hss.append hss' (.inr ⟨rfl, rfl⟩)⟩
    rw [summands, hsummands, hsummands']

/-- Without operands nothing but numbers is left. -/
theorem all_isNumber_iff (ss : List Summand) :
    ss.all (!·.isOperand) = true ↔ ∀ sign, operandsOf sign ss = [] := by
  simp only [List.all_eq_true, operandsOf, List.map_eq_nil_iff, List.filter_eq_nil_iff]
  constructor
  · intro h sign s hs
    simp_all
  · intro h s hs
    simpa using h s.added s hs

/-! ## Fields -/

theorem exists_operandField (he : e.IsRead functions) :
    ∃ field, operandField functions e = .ok field := by
  cases he with
  | @accessor _ s hs address l l' =>
    exact ⟨.memory s address, by simp only [operandField, denotesOperand, hs, Function.isOperand,
      if_true, callField, memoryAt, Word.ofInt?_val]⟩
  | @prev _ _ s hp ha address l l' l'' =>
    exact ⟨previousOf (.memory s address), by simp only [operandField, denotesOperand, hp, ha,
      Function.isOperand, if_true, callField, memoryAt, Word.ofInt?_val, Except.map]⟩

theorem sideHasFields (he : e.IsSum functions) : SideHasFields functions e := by
  intro ss hss sign x hx
  obtain ⟨ss', hss', hsummarizes⟩ := exists_summands he true
  rw [hss] at hss'
  cases hss'
  exact exists_operandField (hsummarizes.reads sign x hx)

/-- The failure is a mismatch of the script. -/
def IsMismatch (f : Failure) : Prop := ∃ fault, f = .fault fault ∧ fault.cause.kind = .mismatch

/-- What is no number and no read has no field. -/
theorem operandField_of_not_isRead (he : e.IsSum functions) (hread : ¬ e.IsRead functions)
    (hinteger : e.integer? = none) : ∃ f, operandField functions e = .error f ∧ IsMismatch f := by
  cases he with
  | integer n l => cases hinteger
  | read h => exact absurd h hread
  | add ha hb l => exact ⟨_, rfl, _, rfl, rfl⟩
  | sub ha hb l => exact ⟨_, rfl, _, rfl, rfl⟩

/-! ## Rows -/

/-- There are rows if the comparison is accepted, and else a mismatch. -/
structure AcceptsIf (accepted : Prop) (x : Except Failure Group) : Prop where
  accepts : accepted → ∃ rows, x = .ok rows
  refuses : ¬ accepted → ∃ f, x = .error f ∧ IsMismatch f

theorem acceptsIf_ok {accepted : Prop} (h : accepted) (rows : Group) :
    AcceptsIf accepted (.ok rows) :=
  ⟨fun _ => ⟨rows, rfl⟩, fun h' => absurd h h'⟩

theorem acceptsIf_mismatch {accepted : Prop} (h : ¬ accepted) {f : Failure} (hf : IsMismatch f) :
    AcceptsIf accepted (.error f) :=
  ⟨fun h' => absurd h' h, fun _ => ⟨f, rfl, hf⟩⟩

/-- Reads are compared with a field if one of them is added. -/
theorem acceptsIf_sumRows {ss : List Summand} (hss : Summarizes functions true left ss)
    (op : Relation) (right : Field) (loc : Option Loc) :
    AcceptsIf (left.Contains functions true) (sumRows functions op ss right loc) := by
  have hfields (sign : Bool) :
      ∃ fields, operandFields functions (operandsOf sign ss) = .ok fields :=
    HaveFields.exists_operandFields fun x hx => exists_operandField (hss.reads sign x hx)
  obtain ⟨added, hadded⟩ := hfields true
  obtain ⟨subtracted, hsubtracted⟩ := hfields false
  have hcontains : operandsOf true ss ≠ [] ↔ left.Contains functions true := hss.operands true
  rw [← hcontains]
  by_cases hempty : operandsOf true ss = []
  · rw [sumRows, if_pos (List.isEmpty_iff.2 hempty)]
    exact acceptsIf_mismatch (not_not.2 hempty) ⟨_, rfl, rfl⟩
  · obtain ⟨last, hlast⟩ : ∃ last, added.getLast? = some last := by
      have hlength := (operandFields_eq_ok hadded).length_eq
      have hne : added ≠ [] := by
        rintro rfl
        exact hempty (List.eq_nil_of_length_eq_zero hlength)
      exact ⟨_, List.getLast?_eq_some_getLast hne⟩
    obtain ⟨rows, hrows⟩ : ∃ rows, comparingRows op added subtracted right = some rows :=
      ⟨_, comparingRows_eq_some_iff.2 ⟨last, hlast, rfl⟩⟩
    rw [sumRows_eq_ok_iff.2 ⟨added, subtracted, hadded, hsubtracted, hrows⟩]
    exact acceptsIf_ok hempty rows

/-- A number is the literal of a row if it has 32 bits. -/
theorem operandField_integer (n : Int) (l : Option Loc) :
    (0 ≤ n ∧ n ≤ 2 ^ 32 - 1 → ∃ field, operandField functions (.integer n l) = .ok field) ∧
      (¬ (0 ≤ n ∧ n ≤ 2 ^ 32 - 1) →
        ∃ f, operandField functions (.integer n l) = .error f ∧ IsMismatch f) := by
  rw [operandField]
  constructor
  · intro hn
    have hword : 0 ≤ n ∧ n.toNat < wordCount := ⟨hn.1, by unfold wordCount; omega⟩
    rw [Word.ofInt?, dif_pos hword]
    exact ⟨_, rfl⟩
  · intro hn
    have hword : ¬ (0 ≤ n ∧ n.toNat < wordCount) := by
      unfold wordCount
      omega
    rw [Word.ofInt?, dif_neg hword]
    exact ⟨_, rfl, _, rfl, rfl⟩

/-- With memory on the left, a number on the right must leave one of 32 bits, and memory must be
added. -/
theorem isExpressible_integer_iff {n : Int} {l : Option Loc}
    (hoperand : ¬ ∀ added, ¬ left.Contains functions added) :
    left.IsExpressible functions (.integer n l) ↔
      (0 ≤ n - left.constantSum ∧ n - left.constantSum ≤ 2 ^ 32 - 1) ∧
        left.Contains functions true := by
  constructor
  · rintro (⟨-, hleft⟩ | ⟨⟨⟩, hrange, hleft⟩ | ⟨⟨⟩, -, -⟩)
    · exact absurd hleft hoperand
    · exact ⟨hrange, hleft⟩
  · rintro ⟨hrange, hleft⟩
    exact .limit rfl hrange hleft

/-- Numbers are compared with numbers at once, and sums of memory with numbers of 32 bits. -/
theorem acceptsIf_orderedRows_integer (hl : left.IsSum functions) (op : Relation) (n : Int)
    (l loc : Option Loc) :
    AcceptsIf (left.IsExpressible functions (.integer n l))
      (orderedRows functions op left (.integer n l) loc) := by
  obtain ⟨ss, hsummands, hss⟩ := exists_summands hl true
  have hconstant : constantOf ss = left.constantSum := hss.constant
  have hnumbers : ss.all (!·.isOperand) = true ↔ ∀ added, ¬ left.Contains functions added := by
    rw [all_isNumber_iff]
    refine forall_congr' fun sign => not_ne_iff.symm.trans (not_iff_not.2 ?_)
    rw [hss.operands, beq_true]
  rw [orderedRows, hsummands]
  dsimp only
  rw [hconstant]
  split
  next hall => exact acceptsIf_ok (.constant rfl (hnumbers.1 hall)) _
  next hall =>
    rw [isExpressible_integer_iff fun h => hall (hnumbers.2 h)]
    split
    next hneg => exact acceptsIf_mismatch (fun h => absurd h.1.1 (not_le.2 hneg)) ⟨_, rfl, rfl⟩
    next =>
      by_cases hrange : 0 ≤ n - left.constantSum ∧ n - left.constantSum ≤ 2 ^ 32 - 1
      · obtain ⟨field, hfield⟩ := (operandField_integer _ l).1 hrange
        rw [hfield, and_iff_right hrange]
        exact acceptsIf_sumRows hss op field loc
      · obtain ⟨f, hf, hmismatch⟩ := (operandField_integer _ l).2 hrange
        rw [hf]
        exact acceptsIf_mismatch (fun h => hrange h.1) hmismatch

/-- The rows of a comparison with what is no number. -/
theorem orderedRows_of_integer?_eq_none (hr : right.integer? = none) (op : Relation)
    (loc : Option Loc) {ss : List Summand} (hss : summands true left = .ok ss) :
    orderedRows functions op left right loc =
      if constantOf ss ≠ 0 then .error (.at? .constantsOnLeft loc)
      else
        match operandField functions right with
        | .error f => .error f
        | .ok field => sumRows functions op ss field loc := by
  rw [orderedRows, hss]
  cases right with
  | integer n l => cases hr
  | _ => rfl

theorem isExpressible_iff_of_integer?_eq_none (hr : right.integer? = none) :
    left.IsExpressible functions right ↔
      right.IsRead functions ∧ left.constantSum = 0 ∧ left.Contains functions true := by
  constructor
  · rintro (⟨rfl, -⟩ | ⟨rfl, -, -⟩ | ⟨hread, hconstant, hleft⟩)
    · cases hr
    · cases hr
    · exact ⟨hread, hconstant, hleft⟩
  · rintro ⟨hread, hconstant, hleft⟩
    exact .read hread hconstant hleft

/-- Sums of memory without a number are compared with a read of memory. -/
theorem acceptsIf_orderedRows_of_integer?_eq_none (hl : left.IsSum functions)
    (hr : right.IsSum functions) (hinteger : right.integer? = none) (op : Relation)
    (loc : Option Loc) :
    AcceptsIf (left.IsExpressible functions right) (orderedRows functions op left right loc) := by
  obtain ⟨ss, hsummands, hss⟩ := exists_summands hl true
  have hconstant : constantOf ss = left.constantSum := hss.constant
  rw [orderedRows_of_integer?_eq_none hinteger op loc hsummands, hconstant,
    isExpressible_iff_of_integer?_eq_none hinteger]
  split
  next hne => exact acceptsIf_mismatch (fun h => hne h.2.1) ⟨_, rfl, rfl⟩
  next hzero =>
    by_cases hread : right.IsRead functions
    · obtain ⟨field, hfield⟩ := exists_operandField hread
      rw [hfield, and_iff_right hread, and_iff_right (not_not.1 hzero)]
      exact acceptsIf_sumRows hss op field loc
    · obtain ⟨f, hf, hmismatch⟩ := operandField_of_not_isRead hr hread hinteger
      rw [hf]
      exact acceptsIf_mismatch (fun h => hread h.1) hmismatch

theorem acceptsIf_orderedRows (hl : left.IsSum functions) (hr : right.IsSum functions)
    (op : Relation) (loc : Option Loc) :
    AcceptsIf (left.IsExpressible functions right) (orderedRows functions op left right loc) := by
  by_cases hinteger : right.integer? = none
  · exact acceptsIf_orderedRows_of_integer?_eq_none hl hr hinteger op loc
  · cases right with
    | integer n l => exact acceptsIf_orderedRows_integer hl op n l loc
    | _ => exact absurd rfl hinteger

/-! ## Comparisons -/

theorem acceptsIf_comparisonRows (hl : left.IsSum functions) (hr : right.IsSum functions)
    (op : Relation) (loc : Option Loc) :
    AcceptsIf ((exchanged left right).1.IsExpressible functions (exchanged left right).2)
      (comparisonRows functions op left right loc) := by
  rw [exchanged, comparisonRows]
  split
  · exact acceptsIf_orderedRows hr hl op.mirrored loc
  · exact acceptsIf_orderedRows hl hr op loc

/-- **Compilation accepts the expressible comparisons** and no others. The sides are sums of
integers and reads of memory. An accepted comparison writes its rows behind those that are there;
any other is a mismatch, and leaves them as they are. -/
theorem comparison_accepted_iff (hl : left.IsSum functions) (hr : right.IsSum functions)
    (op : Relation) (loc : Option Loc) (rows : Group) :
    ((exchanged left right).1.IsExpressible functions (exchanged left right).2 →
      ∃ new, new ≠ [] ∧ comparisonRows functions op left right loc = .ok new ∧
        writeComparison functions op left right loc rows = (.ok (), rows ++ new)) ∧
    (¬ (exchanged left right).1.IsExpressible functions (exchanged left right).2 →
      ∃ fault, fault.cause.kind = .mismatch ∧
        comparisonRows functions op left right loc = .error (.fault fault) ∧
        writeComparison functions op left right loc rows = (.error (.fault fault), rows)) := by
  have haccepts := acceptsIf_comparisonRows hl hr op loc
  have hwrites := writesAs_writeComparison functions op left right loc rows
  constructor
  · intro h
    obtain ⟨new, hnew⟩ := haccepts.accepts h
    rw [hnew] at hwrites
    exact ⟨new, comparisonRows_ne_nil hnew, hnew, hwrites⟩
  · intro h
    obtain ⟨f, hf, fault, rfl, hkind⟩ := haccepts.refuses h
    rw [hf] at hwrites
    obtain ⟨more, hwritten, hmore⟩ := hwrites
    rw [hmore ⟨sideHasFields hl, sideHasFields hr⟩, List.append_nil] at hwritten
    exact ⟨fault, hkind, hf, hwritten⟩

/-- The difference `5 - (byte(1) - prev(word(2)) - 3)`, in which the constants come to 8 and the
previous value of the word is added. -/
def nestedDifference : Expr :=
  .math .sub (.integer 5 none)
    (.math .sub (.math .sub (.call "byte" [.integer 1 none] none)
      (.call "prev" [.call "word" [.integer 2 none] none] none) none) (.integer 3 none) none) none

theorem isRead_previousWord :
    Expr.IsRead .initial (.call "prev" [.call "word" [.integer 2 none] none] none) :=
  .prev (s := .word) rfl rfl 2 none none none

theorem isSum_nestedDifference : nestedDifference.IsSum .initial :=
  have hbyte : Expr.IsRead .initial (.call "byte" [.integer 1 none] none) :=
    .accessor (s := .byte) rfl 1 none none
  .sub (.integer 5 none)
    (.sub (.sub (.read hbyte) (.read isRead_previousWord) none) (.integer 3 none) none) none

/-- The largest number that the difference can be compared with, and the next one. -/
theorem comparison_accepted_iff_atBoundary :
    (∃ new, new ≠ [] ∧
      comparisonRows .initial .lt (.integer 4294967303 none) nestedDifference none = .ok new ∧
      writeComparison .initial .lt (.integer 4294967303 none) nestedDifference none
        [constantRow true] = (.ok (), [constantRow true] ++ new)) ∧
    ∃ fault, fault.cause.kind = .mismatch ∧
      comparisonRows .initial .lt (.integer 4294967304 none) nestedDifference none =
        .error (.fault fault) ∧
      writeComparison .initial .lt (.integer 4294967304 none) nestedDifference none
        [constantRow true] = (.error (.fault fault), [constantRow true]) := by
  have hcontains : nestedDifference.Contains .initial true :=
    .inr (.inl (.inr ⟨rfl, isRead_previousWord⟩))
  constructor
  · refine (comparison_accepted_iff (.integer _ none) isSum_nestedDifference .lt none _).1 ?_
    exact .limit rfl (by decide) hcontains
  · refine (comparison_accepted_iff (.integer _ none) isSum_nestedDifference .lt none _).2 ?_
    rintro (⟨-, hleft⟩ | ⟨⟨⟩, hrange, -⟩ | ⟨⟨⟩, -, -⟩)
    · exact hleft true hcontains
    · exact absurd hrange (by decide)

end Compile

end AchievementLang

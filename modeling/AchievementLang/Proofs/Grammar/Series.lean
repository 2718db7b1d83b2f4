import AchievementLang.Proofs.Grammar.Phrases

/-!
# Phrases in a row

Conditions joined by one connective, the entries of an array and the arguments of a call are read
one after the other. After each of them the stack is one phrase longer, or as long as before
(`consumes_joined`, `Series.consumes_item`), and by induction this holds after all of them.

Joined conditions become one node as they are read (`joinConditions`), so they are told apart only
if none of them is a node of the same connective (`foldl_joinConditions`). The items of arrays and
of calls are read alike; `Series` says what the tables need to have in common for that.
-/

namespace AchievementLang

namespace Connective

open Grammar

/-- The state in which a condition in parentheses waits for the connective. -/
def waiting : Connective → State
  | .and => 12
  | .or => 19

/-- The state after the connective. -/
def shifted : Connective → State
  | .and => 37
  | .or => 38

/-- The state after the next condition. -/
def joined : Connective → State
  | .and => 56
  | .or => 57

/-- What the tables say of joined conditions in parentheses. -/
theorem table (op : Connective) :
    (∀ kind ∈ kinds, rises 6 kind [op.terminal, .rpar] op.waiting = true ∧
      rises op.shifted kind [op.terminal, .rpar] op.joined = true) ∧
    (row op.waiting).shifts.lookup op.terminal = some op.shifted ∧
    op.shifted ∈ operandStates ∧
    (∀ t ∈ [op.terminal, .rpar], calledFor? op.joined t = some (.join op)) ∧
    goto? 6 (Rule.join op).left = some op.waiting ∧
    climb .rpar 6 12 op.waiting = climb .rpar 6 12 29 := by
  cases op <;> decide

end Connective

namespace Grammar

/-! ## Joined conditions -/

/-- Joining conditions does not look at places. -/
theorem bare_joinConditions (op : Connective) {a a' b b' : Expr} (ha : a'.bare = a.bare)
    (hb : b'.bare = b.bare) (l l' : Option Loc) :
    (joinConditions op a' b' l).bare = (joinConditions op a b l').bare := by
  simp only [joinConditions, Expr.bare, Expr.bareAll_append, Expr.bareAll_operandsOf, ha, hb]

/-- Conditions that are no nodes of the connective themselves are joined into one node. -/
theorem foldl_joinConditions {op : Connective} {a : Expr} {bs : List Expr} (hbs : bs ≠ [])
    (ha : a.operandsOf op = [a]) (h : ∀ b ∈ bs, b.operandsOf op = [b]) :
    bs.foldl (fun x b => joinConditions op x b none) a = .logic op (a :: bs) none := by
  have more : ∀ bs : List Expr, (∀ b ∈ bs, b.operandsOf op = [b]) → ∀ es,
      bs.foldl (fun x b => joinConditions op x b none) (.logic op es none) =
        .logic op (es ++ bs) none := by
    intro bs hbs
    induction bs with
    | nil => simp
    | cons b bs ih =>
      intro es
      have hjoin : joinConditions op (.logic op es none) b none = .logic op (es ++ [b]) none := by
        rw [joinConditions, Expr.operandsOf, if_pos rfl, hbs b (by simp)]
      rw [List.foldl_cons, hjoin, ih (fun b' hb' => hbs b' (by simp [hb'])), List.append_assoc]
      rfl
  obtain ⟨b, bs, rfl⟩ := List.exists_cons_of_ne_nil hbs
  rw [List.foldl_cons, joinConditions, ha, h b (by simp),
    more bs fun b' hb' => h b' (by simp [hb'])]
  rfl

/-- The conditions after the first, each led by the connective. -/
def joinedText (op : Connective) (items : List (Expr × List Char)) : List Char :=
  items.flatMap fun i => spaced op.symbol.toList ++ i.2

/-- A condition is read, of one kind or another. -/
def ReadsCondition (e : Expr) (text : List Char) : Prop := ∃ kind ∈ kinds, Reads e text kind

variable {op : Connective} {st st' : Stack} {x : Expr} {items : List (Expr × List Char)}
  {rest : List Char}

theorem endsWord_joinedText (op : Connective) (items : List (Expr × List Char)) (rest : List Char) :
    EndsWord (joinedText op items ++ ')' :: rest) := by
  cases items with
  | nil => exact endsWord_cons rfl _
  | cons i items => exact endsWord_cons rfl _

/-- One more condition is joined. -/
theorem consumes_joined (hst : st.state = 6)
    (hst' : Completes st [op.terminal, .rpar] op.waiting (Says x) st') {e : Expr}
    {text : List Char} (he : ReadsCondition e text) (hrest : EndsWord rest) :
    Consumes st' (spaced op.symbol.toList ++ text) rest
      (Completes st [op.terminal, .rpar] op.waiting (Says (joinConditions op x e none))) := by
  obtain ⟨hrises, hshift, hshifted, hcalled, hgoto, -⟩ := op.table
  obtain ⟨kind, hkind, he⟩ := he
  refine Consumes.append (hst'.consumes_spaced List.mem_cons_self hshift (scans_connective op)
    (by cases op <;> decide) (by cases op <;> nofun) _) fun st₁ hst₁ => ?_
  obtain ⟨m, l, hm, w, l', -, rfl⟩ := hst₁
  refine Consumes.mono (he.consumes hshifted (hrises kind hkind).2 hrest) fun st₂ hst₂ => ?_
  refine hst₂.join [⟨op.shifted, .token w, l'⟩, ⟨op.waiting, m, l⟩] hcalled rfl rfl ?_
    (hst ▸ hgoto) (by cases op <;> decide)
  rintro _ ⟨e', rfl, he'⟩
  obtain ⟨x', rfl, hx'⟩ := hm
  exact ⟨_, rfl, _, rfl, bare_joinConditions op hx' he' _ _⟩

/-- All conditions are joined, one after the other. -/
theorem consumes_joinedText (hst : st.state = 6) (h : ∀ i ∈ items, ReadsCondition i.1 i.2)
    (hst' : Completes st [op.terminal, .rpar] op.waiting (Says x) st') :
    Consumes st' (joinedText op items) (')' :: rest)
      (Completes st [op.terminal, .rpar] op.waiting
        (Says ((items.map Prod.fst).foldl (fun x b => joinConditions op x b none) x))) := by
  induction items generalizing x st' with
  | nil => exact consumes_nil hst' _
  | cons i items ih =>
    refine Consumes.append (consumes_joined hst hst' (h i (by simp))
      (endsWord_joinedText op items rest)) fun st₁ hst₁ => ?_
    exact ih (fun j hj => h j (by simp [hj])) hst₁

theorem reads_logic (op : Connective) {a : Expr} {ta : List Char} (ha : ReadsCondition a ta)
    (h : ∀ i ∈ items, ReadsCondition i.1 i.2) (hitems : items ≠ [])
    (hop : ∀ e ∈ a :: items.map Prod.fst, e.operandsOf op = [e]) (l : Option Loc) :
    Reads (.logic op (a :: items.map Prod.fst) l)
      ('(' :: (ta ++ joinedText op items ++ [')'])) .atom := by
  refine reads_parenthesized fun st rest hst => ?_
  obtain ⟨hrises, -, -, -, -, hclimb⟩ := op.table
  obtain ⟨kind, hkind, ha⟩ := ha
  refine Consumes.append (ha.consumes (hst ▸ by decide) (hst ▸ (hrises kind hkind).1)
    (endsWord_joinedText op items rest)) fun st₁ hst₁ => ?_
  refine (consumes_joinedText hst h hst₁).mono fun st₂ hst₂ => ?_
  refine Completes.climb (n := op.waiting) ?_ 12 fun t ht => ⟨ht, ?_⟩
  · refine hst₂.trans (fun t ht => List.mem_cons_of_mem _ ht) fun m l' hm => ⟨m, l', ?_, ?_⟩
    · obtain ⟨e', rfl, he'⟩ := hm
      rw [foldl_joinConditions (by simpa using hitems) (hop a (by simp))
        fun b hb => hop b (by simp [hb])] at he'
      exact ⟨e', rfl, he'⟩
    · exact fun _ _ _ => rfl
  · rw [List.mem_singleton.1 ht, hst]
    exact hclimb

/-! ## Series separated by commas -/

/-- The text is read as the expression from one state to another. -/
def ReadsFrom (q n : State) (ts : List Terminal) (e : Expr) (text : List Char) : Prop :=
  ∀ ⦃st rest⦄, st.state = q → EndsWord rest → Consumes st text rest (Completes st ts n (Says e))

theorem Reads.readsFrom {e : Expr} {text : List Char} {kind : Nonterminal} (h : Reads e text kind)
    {q n : State} {ts : List Terminal} (hq : q ∈ operandStates)
    (hrises : rises q kind ts n = true) : ReadsFrom q n ts e text := by
  rintro st rest rfl hrest
  exact h.consumes hq hrises hrest

/-- How phrases separated by commas are read. The first stays a phrase of its own; from the second
on they are collected. -/
structure Series where
  /-- The words that may follow an item. -/
  ends : List Terminal
  /-- The state before the first item. -/
  opened : State
  /-- The state after the first item. -/
  one : State
  /-- The state before the second item. -/
  second : State
  /-- The state after the second item, before it is collected. -/
  two : State
  /-- The state in which items have been collected. -/
  many : State
  /-- The state before each further item. -/
  next : State
  /-- The state after such an item, before it is collected. -/
  more : State
  firstRule : Rule
  nextRule : Rule
  opened_mem : opened ∈ operandStates
  second_mem : second ∈ operandStates
  next_mem : next ∈ operandStates
  rises_one : ∀ kind ∈ kinds, rises opened kind ends one = true
  rises_two : ∀ kind ∈ kinds, rises second kind ends two = true
  rises_more : ∀ kind ∈ kinds, rises next kind ends more = true
  comma_mem : .comma ∈ ends
  shift_second : (row one).shifts.lookup .comma = some second
  shift_next : (row many).shifts.lookup .comma = some next
  calls_first : ∀ t ∈ ends, calledFor? two t = some firstRule
  calls_next : ∀ t ∈ ends, calledFor? more t = some nextRule
  size_first : firstRule.size = 2
  size_next : nextRule.size = 3
  goto_first : goto? one firstRule.left = some many
  goto_next : goto? one nextRule.left = some many
  many_ne : many ≠ accepting
  build_first : ∀ l w e, firstRule.build l [.token w, .expr e] = some (.exprs [e])
  build_next : ∀ l es w e,
    nextRule.build l [.exprs es, .token w, .expr e] = some (.exprs (es ++ [e]))

/-- The entries of an array. -/
def entries : Series where
  ends := [.comma, .rsqb]
  opened := 7
  one := 31
  second := 47
  two := 69
  many := 49
  next := 70
  more := 83
  firstRule := .firstEntry
  nextRule := .nextEntry
  opened_mem := by decide
  second_mem := by decide
  next_mem := by decide
  rises_one := by decide
  rises_two := by decide
  rises_more := by decide
  comma_mem := by decide
  shift_second := rfl
  shift_next := rfl
  calls_first := by decide
  calls_next := by decide
  size_first := rfl
  size_next := rfl
  goto_first := rfl
  goto_next := rfl
  many_ne := by decide
  build_first _ _ _ := rfl
  build_next _ _ _ _ := rfl

/-- The arguments of a call. -/
def arguments : Series where
  ends := [.comma, .rpar]
  opened := 34
  one := 53
  second := 73
  two := 85
  many := 74
  next := 86
  more := 95
  firstRule := .firstArg
  nextRule := .nextArg
  opened_mem := by decide
  second_mem := by decide
  next_mem := by decide
  rises_one := by decide
  rises_two := by decide
  rises_more := by decide
  comma_mem := by decide
  shift_second := rfl
  shift_next := rfl
  calls_first := by decide
  calls_next := by decide
  size_first := rfl
  size_next := rfl
  goto_first := rfl
  goto_next := rfl
  many_ne := by decide
  build_first _ _ _ := rfl
  build_next _ _ _ _ := rfl

namespace Series

/-- The text is read as an item, wherever in the series it stands. -/
structure Item (S : Series) (e : Expr) (text : List Char) : Prop where
  opened : ReadsFrom S.opened S.one S.ends e text
  second : ReadsFrom S.second S.two S.ends e text
  next : ReadsFrom S.next S.more S.ends e text

theorem item_of_reads (S : Series) {e : Expr} {text : List Char} {kind : Nonterminal}
    (h : Reads e text kind) (hkind : kind ∈ kinds) : S.Item e text :=
  ⟨h.readsFrom S.opened_mem (S.rises_one kind hkind),
    h.readsFrom S.second_mem (S.rises_two kind hkind),
    h.readsFrom S.next_mem (S.rises_more kind hkind)⟩

/-- The stack after the items of a series, of which there is at least one. -/
def Holds (S : Series) (st : Stack) (e : Expr) : List Expr → Stack → Prop
  | [], st' => Completes st S.ends S.one (Says e) st'
  | es, st' => ∃ m l, Says e m ∧
      Completes (⟨S.one, m, l⟩ :: st) S.ends S.many (SaysAll es) st'

/-- The items after the first, each led by a comma. -/
def moreText (items : List (Expr × List Char)) : List Char :=
  items.flatMap fun i => ',' :: ' ' :: i.2

variable {S : Series} {e e₀ : Expr} {es : List Expr} {text t₀ : List Char}

theorem endsWord_moreText (items : List (Expr × List Char)) (hrest : EndsWord rest) :
    EndsWord (moreText items ++ rest) := by
  cases items with
  | nil => exact hrest
  | cons i items => exact endsWord_cons rfl _

/-- One more item is read. -/
theorem consumes_item (he : S.Item e text) (hst' : S.Holds st e₀ es st') (hrest : EndsWord rest) :
    Consumes st' (',' :: ' ' :: text) rest (S.Holds st e₀ (es ++ [e])) := by
  cases es with
  | nil =>
    have hcomma := Completes.consumes_sign hst' S.comma_mem S.shift_second
      (scans_comma (' ' :: (text ++ rest))) (by simp) nofun
    refine Consumes.cons hcomma fun st₁ hst₁ => ?_
    obtain ⟨m, l, hm, w, l', -, rfl⟩ := hst₁
    refine Consumes.cons (consumes_blank _ _) fun st₂ hst₂ => ?_
    subst hst₂
    refine (he.second rfl hrest).mono fun st₃ hst₃ => ⟨m, l, hm, ?_⟩
    refine hst₃.join [⟨S.second, .token w, l'⟩] S.calls_first S.size_first.symm rfl ?_
      S.goto_first S.many_ne
    rintro _ ⟨e', rfl, he'⟩
    exact ⟨_, S.build_first _ _ _, _, rfl, by simp only [List.nil_append, Expr.bareAll, he']⟩
  | cons e₁ es =>
    obtain ⟨m, l, hm, hst'⟩ := hst'
    have hcomma := Completes.consumes_sign hst' S.comma_mem S.shift_next
      (scans_comma (' ' :: (text ++ rest))) (by simp) nofun
    refine Consumes.cons hcomma fun st₁ hst₁ => ?_
    obtain ⟨ms, ls, hms, w, l', -, rfl⟩ := hst₁
    refine Consumes.cons (consumes_blank _ _) fun st₂ hst₂ => ?_
    subst hst₂
    refine (he.next rfl hrest).mono fun st₃ hst₃ => ⟨m, l, hm, ?_⟩
    refine hst₃.join [⟨S.next, .token w, l'⟩, ⟨S.many, ms, ls⟩] S.calls_next
      S.size_next.symm rfl ?_ S.goto_next S.many_ne
    rintro _ ⟨e', rfl, he'⟩
    obtain ⟨es', rfl, hes'⟩ := hms
    refine ⟨_, S.build_next _ _ _ _, _, rfl, ?_⟩
    simp only [Expr.bareAll_append, hes', Expr.bareAll, he']

/-- All items are read, one after the other. -/
theorem consumes_items {items : List (Expr × List Char)} (h : ∀ i ∈ items, S.Item i.1 i.2)
    (hst' : S.Holds st e₀ es st') (hrest : EndsWord rest) :
    Consumes st' (moreText items) rest (S.Holds st e₀ (es ++ items.map Prod.fst)) := by
  induction items generalizing es st' with
  | nil =>
    refine consumes_nil ?_ rest
    rwa [List.map_nil, List.append_nil]
  | cons i items ih =>
    refine Consumes.append (consumes_item (h i (by simp)) hst' (endsWord_moreText items hrest))
      fun st₁ hst₁ => ?_
    refine (ih (fun j hj => h j (by simp [hj])) hst₁).mono fun st₂ hst₂ => ?_
    rwa [List.append_assoc] at hst₂

/-- A series of at least one item. -/
theorem consumes (h₀ : S.Item e₀ t₀) {items : List (Expr × List Char)}
    (h : ∀ i ∈ items, S.Item i.1 i.2) (hst : st.state = S.opened) (hrest : EndsWord rest) :
    Consumes st (t₀ ++ moreText items) rest (S.Holds st e₀ (items.map Prod.fst)) :=
  Consumes.append (h₀.opened hst (endsWord_moreText items hrest)) fun _ hst' =>
    consumes_items h (show S.Holds st e₀ [] _ from hst') hrest

end Series

/-! ## Arrays -/

variable {e : Expr} {text : List Char} {kind : Nonterminal}

theorem reads_emptyArray (l : Option Loc) : Reads (.array [] l) ['[', ']'] .atom := by
  intro st rest n hst hgoto hrest
  have hcalled : ∀ q ∈ operandStates, ∀ t ∈ followers q .atom,
      calledFor? 30 t = some .emptyArray := by decide
  refine Consumes.cons (consumes_sign (scans_lsqb _) (by simp) nofun
    (lookup_of_opens (by decide : opens .lsqb 7 = true) hst)) fun st₁ hst₁ => ?_
  obtain ⟨w, l₁, -, rfl⟩ := hst₁
  refine Consumes.mono (consumes_sign (scans_rsqb rest) (by simp) nofun
    (rfl : (row 7).shifts.lookup .rsqb = some 30)) fun st₂ hst₂ => ?_
  obtain ⟨w', l₂, -, rfl⟩ := hst₂
  exact completes_closed [⟨7, .token w, l₁⟩] (hcalled _ hst) rfl rfl rfl ⟨_, rfl, rfl⟩ hgoto
    (goto_ne_accepting hst (by decide) hgoto)

theorem reads_array (h : entries.Item e text) (hitems : ∀ i ∈ items, entries.Item i.1 i.2)
    (l : Option Loc) :
    Reads (.array (e :: items.map Prod.fst) l) ('[' :: (text ++ Series.moreText items ++ [']']))
      .atom := by
  intro st rest n hst hgoto hrest
  have hone : ∀ q ∈ operandStates, ∀ t ∈ followers q .atom,
      calledFor? 48 t = some .onlyEntry := by decide
  have hmany : ∀ q ∈ operandStates, ∀ t ∈ followers q .atom, calledFor? 71 t = some .array := by
    decide
  have hn := goto_ne_accepting hst (by decide) hgoto
  refine Consumes.cons (consumes_sign (scans_lsqb _) (by simp) nofun
    (lookup_of_opens (by decide : opens .lsqb 7 = true) hst)) fun st₁ hst₁ => ?_
  obtain ⟨w, l₁, -, rfl⟩ := hst₁
  refine Consumes.append (Series.consumes h hitems rfl (endsWord_cons rfl rest)) fun st₂ hst₂ => ?_
  cases hes : items.map Prod.fst with
  | nil =>
    rw [hes] at hst₂
    refine (Completes.consumes_sign hst₂ (by decide : Terminal.rsqb ∈ entries.ends)
      (rfl : (row 31).shifts.lookup .rsqb = some 48) (scans_rsqb rest) (by simp) nofun).mono
      fun st₃ hst₃ => ?_
    obtain ⟨m, l₂, hm, w', l₃, -, rfl⟩ := hst₃
    obtain ⟨e', rfl, he'⟩ := hm
    exact completes_closed [⟨31, .expr e', l₂⟩, ⟨7, .token w, l₁⟩] (hone _ hst) rfl rfl rfl
      ⟨_, rfl, by simp only [Expr.bare, Expr.bareAll, he']⟩ hgoto hn
  | cons e₁ es =>
    rw [hes] at hst₂
    obtain ⟨m, l₂, hm, hst₂⟩ := hst₂
    refine (Completes.consumes_sign hst₂ (by decide : Terminal.rsqb ∈ entries.ends)
      (rfl : (row 49).shifts.lookup .rsqb = some 71) (scans_rsqb rest) (by simp) nofun).mono
      fun st₃ hst₃ => ?_
    obtain ⟨ms, l₃, hms, w', l₄, -, rfl⟩ := hst₃
    obtain ⟨e', rfl, he'⟩ := hm
    obtain ⟨es', rfl, hes'⟩ := hms
    refine completes_closed [⟨49, .exprs es', l₃⟩, ⟨31, .expr e', l₂⟩, ⟨7, .token w, l₁⟩]
      (hmany _ hst) rfl rfl rfl ⟨_, rfl, ?_⟩ hgoto hn
    rw [Expr.bare, Expr.bare, Expr.bareAll, Expr.bareAll, he', hes', Expr.bareAll]

/-! ## Calls -/

/-- A name where it may turn out to be a label. -/
theorem consumes_name {x : String} (hx : IsIdentifier x) {k : State}
    (hshift : (row st.state).shifts.lookup .name = some k) (hrest : EndsWord rest) :
    Consumes st x.toList rest (Shifted k x.toList st) :=
  consumes_word (scans_name hx hrest) hx.toList_ne_nil (fun _ => hx.not_keyword)
    (actionable_of_shift hshift) fun _ => settle_shift hshift

/-- The equals sign after a name, with a blank on each side. -/
theorem consumes_equal {k : State} (hshift : (row st.state).shifts.lookup .equal = some k)
    (rest : List Char) : Consumes st (spaced ['=']) rest (Shifted k ['='] st) := by
  refine Consumes.cons (consumes_blank st _) fun st₁ hst₁ => ?_
  subst hst₁
  have hequal := consumes_sign (scans_equal rest) (by simp) nofun hshift
  refine Consumes.append hequal fun st₂ hst₂ => ?_
  refine (consumes_blank st₂ rest).mono fun st₃ hst₃ => ?_
  subst hst₃
  exact hst₂

theorem readsFrom_named {x : String} (hx : IsIdentifier x) (h : Reads e text kind)
    (hkind : kind ∈ kinds) (l : Option Loc) {q n : State}
    (hname : (row q).shifts.lookup .name = some 51) (hgoto : goto? q .arg = some n)
    (hn : n ≠ accepting) :
    ReadsFrom q n arguments.ends (.assign x e l) (x.toList ++ (spaced ['='] ++ text)) := by
  rintro st rest rfl hrest
  have hrises : ∀ kind ∈ kinds, rises 72 kind arguments.ends 84 = true := by decide
  have hcalled : ∀ t ∈ arguments.ends, calledFor? 84 t = some .namedArg := by decide
  refine Consumes.append (consumes_name hx hname (endsWord_cons rfl _))
    fun st₁ hst₁ => ?_
  obtain ⟨w, l₁, hw, rfl⟩ := hst₁
  refine Consumes.append (consumes_equal (k := 72) (by rfl) _) fun st₂ hst₂ => ?_
  obtain ⟨w', l₂, -, rfl⟩ := hst₂
  refine Consumes.mono (h.consumes (by decide : (72 : State) ∈ operandStates) (hrises kind hkind)
    hrest) fun st₃ hst₃ => ?_
  refine hst₃.join [⟨72, .token w', l₂⟩, ⟨51, .token w, l₁⟩] hcalled rfl rfl ?_ hgoto hn
  rintro _ ⟨e', rfl, he'⟩
  refine ⟨_, rfl, _, rfl, ?_⟩
  rw [Expr.bare, Expr.bare, hw, String.ofList_toList, he']

/-- An argument with a label. -/
theorem Reads.named {x : String} (hx : IsIdentifier x) (h : Reads e text kind)
    (hkind : kind ∈ kinds) (l : Option Loc) :
    arguments.Item (.assign x e l) (x.toList ++ (spaced ['='] ++ text)) :=
  ⟨readsFrom_named hx h hkind l rfl rfl (by decide),
    readsFrom_named hx h hkind l rfl rfl (by decide),
    readsFrom_named hx h hkind l rfl rfl (by decide)⟩

/-- The name of a call and the parenthesis after it. -/
theorem consumes_called {f : String} (hf : IsIdentifier f) (hst : st.state ∈ operandStates)
    (rest : List Char) :
    Consumes st (f.toList ++ ['(']) rest fun st' => ∃ k w l, w.text = f ∧
      Shifted 34 ['('] (⟨k, .token w, l⟩ :: st) st' := by
  have htable : ∀ q ∈ operandStates, ∃ k ∈ (row q).shifts.lookup .name,
      (row k).shifts.lookup .lpar = some 34 := by decide
  obtain ⟨k, hshift, hlpar⟩ := htable _ hst
  refine Consumes.append (consumes_name hf hshift (endsWord_cons rfl rest))
    fun st₁ hst₁ => ?_
  obtain ⟨w, l, hw, rfl⟩ := hst₁
  rw [String.ofList_toList] at hw
  exact Consumes.mono (consumes_sign (scans_lpar rest) (by simp) nofun hlpar)
    fun st₂ hst₂ => ⟨k, w, l, hw, hst₂⟩

theorem reads_emptyCall {f : String} (hf : IsIdentifier f) (l : Option Loc) :
    Reads (.call f [] l) (f.toList ++ ['('] ++ [')']) .atom := by
  intro st rest n hst hgoto hrest
  have hcalled : ∀ q ∈ operandStates, ∀ t ∈ followers q .atom,
      calledFor? 52 t = some .emptyCall := by decide
  refine Consumes.append (consumes_called hf hst _) fun st₁ hst₁ => ?_
  obtain ⟨k, w, l₁, hw, w', l₂, -, rfl⟩ := hst₁
  refine Consumes.mono (consumes_sign (scans_rpar rest) (by simp) nofun
    (rfl : (row 34).shifts.lookup .rpar = some 52)) fun st₂ hst₂ => ?_
  obtain ⟨w'', l₃, -, rfl⟩ := hst₂
  exact completes_closed [⟨34, .token w', l₂⟩, ⟨k, .token w, l₁⟩] (hcalled _ hst) rfl rfl rfl
    ⟨_, rfl, by rw [Expr.bare, Expr.bare, hw]⟩ hgoto (goto_ne_accepting hst (by decide) hgoto)

/-- In front of the closing parenthesis the arguments are collected, be it one or more. -/
theorem completes_args {e : Expr} {es : List Expr} (hst : st.state = 34)
    (h : arguments.Holds st e es st') : Completes st [.rpar] 54 (SaysAll (e :: es)) st' := by
  have hends : ∀ t ∈ [Terminal.rpar], t ∈ arguments.ends := by decide
  cases es with
  | nil =>
    refine Completes.trans h hends fun m l hm => ?_
    obtain ⟨e', rfl, he'⟩ := hm
    refine ⟨.exprs [e'], l, ⟨_, rfl, by simp only [Expr.bareAll, he']⟩,
      fun t ht here => ?_⟩
    rw [List.mem_singleton.1 ht]
    exact settle_single (r := .onlyArg) rfl rfl rfl (hst ▸ rfl) (by decide) (by decide)
  | cons e₁ es =>
    obtain ⟨m, l, ⟨e', rfl, he'⟩, hst'⟩ := h
    refine (hst'.of_subset hends).join [⟨53, .expr e', l⟩] (r := .args) (by decide) rfl
      rfl ?_ (hst ▸ rfl) (by decide)
    rintro _ ⟨es', rfl, hes'⟩
    exact ⟨_, rfl, _, rfl, by simp only [Expr.bareAll, he', hes']⟩

theorem reads_call {f : String} (hf : IsIdentifier f) (h : arguments.Item e text)
    (hitems : ∀ i ∈ items, arguments.Item i.1 i.2) (l : Option Loc) :
    Reads (.call f (e :: items.map Prod.fst) l)
      (f.toList ++ ['('] ++ (text ++ Series.moreText items ++ [')'])) .atom := by
  intro st rest n hst hgoto hrest
  have hcalled : ∀ q ∈ operandStates, ∀ t ∈ followers q .atom, calledFor? 75 t = some .call := by
    decide
  refine Consumes.append (consumes_called hf hst _) fun st₁ hst₁ => ?_
  obtain ⟨k, w, l₁, hw, w', l₂, -, rfl⟩ := hst₁
  refine Consumes.append (Series.consumes h hitems rfl (endsWord_cons rfl rest))
    fun st₂ hst₂ => ?_
  refine ((completes_args rfl hst₂).consumes_sign (List.mem_singleton_self _)
    (rfl : (row 54).shifts.lookup .rpar = some 75) (scans_rpar rest) (by simp) nofun).mono
    fun st₃ hst₃ => ?_
  obtain ⟨ms, l₃, hms, w'', l₄, -, rfl⟩ := hst₃
  obtain ⟨es', rfl, hes'⟩ := hms
  exact completes_closed [⟨54, .exprs es', l₃⟩, ⟨34, .token w', l₂⟩, ⟨k, .token w, l₁⟩]
    (hcalled _ hst) rfl rfl rfl ⟨_, rfl, by rw [Expr.bare, Expr.bare, hw, hes']⟩ hgoto
    (goto_ne_accepting hst (by decide) hgoto)

end Grammar

end AchievementLang

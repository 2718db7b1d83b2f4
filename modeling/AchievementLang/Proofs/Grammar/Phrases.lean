import AchievementLang.Proofs.Grammar.Settling

/-!
# Expressions read back

`Reads e text kind` says that the text is read as a phrase of that kind, with the meaning of `e` up
to places, wherever such a phrase may start and whatever may follow it. There is one rule for each
way in which expressions are put together: words by themselves (`reads_leaf`), parentheses,
operations, comparisons and negations.

What the automaton does in between is looked up in its tables once and for all, over the states in
which an operand may start (`operandStates`): a phrase that starts in such a state rises to the
state from which the next word goes on (`rises`).
-/

namespace AchievementLang.Grammar

/-! ## Where phrases start and end -/

/-- The states in which an operand may start. -/
def operandStates : List State :=
  [1, 6, 7, 8, 10, 33, 34, 37, 38, 39, 40, 41, 42, 43, 44, 47, 70, 72, 73, 76, 78, 86, 93]

/-- The kinds of phrases that may be operands of arithmetic and comparisons. -/
def operandKinds : List Nonterminal := [.atom, .unary]

/-- The kinds of phrases that expressions are written as. -/
def kinds : List Nonterminal := [.atom, .unary, .comparison, .negation]

/-- What may follow a comparison or a negation. -/
def conditionEnds : List Terminal := [.comma, .rpar, .rsqb, .finish, .or, .and]

/-- What may follow an operand. -/
def operandEnds : List Terminal :=
  [.relation, .minus, .percent, .plus, .slash, .star] ++ conditionEnds

/-- What may follow a phrase that starts in the state. Among arguments a name may turn out to be a
label, and then less may follow it than elsewhere. -/
def followers (q : State) (kind : Nonterminal) : List Terminal :=
  (if kind ∈ operandKinds then operandEnds else conditionEnds).filter
    (actionable (((row q).shifts.lookup .name).getD 0))

/-- In front of each of the words, a phrase of the kind that started in state `q` is as good as in
state `n`. -/
def rises (q : State) (kind : Nonterminal) (ts : List Terminal) (n : State) : Bool :=
  match goto? q kind with
  | some n₀ => ts.all fun t => (followers q kind).contains t && climb t q 12 n₀ == climb t q 12 n
  | none => false

/-- The meaning is the expression, up to places. -/
def Says (e : Expr) (m : Meaning) : Prop := ∃ e', m = .expr e' ∧ e'.bare = e.bare

/-- The meaning is the expressions, up to places. -/
def SaysAll (es : List Expr) (m : Meaning) : Prop :=
  ∃ es', m = .exprs es' ∧ Expr.bareAll es' = Expr.bareAll es

/-- The text is read as a phrase of the kind, which says what the expression says. -/
def Reads (e : Expr) (text : List Char) (kind : Nonterminal) : Prop :=
  ∀ ⦃st rest n⦄, st.state ∈ operandStates → goto? st.state kind = some n → EndsWord rest →
    Consumes st text rest (Completes st (followers st.state kind) n (Says e))

variable {e a b : Expr} {text ta tb rest : List Char} {kind ka kb : Nonterminal} {st st' : Stack}
  {ts : List Terminal} {n k : State} {t : Terminal} {M : Meaning → Prop}

theorem Reads.consumes (h : Reads e text kind) (hst : st.state ∈ operandStates)
    (hrises : rises st.state kind ts n = true) (hrest : EndsWord rest) :
    Consumes st text rest (Completes st ts n (Says e)) := by
  unfold rises at hrises
  split at hrises
  next n₀ hgoto =>
    refine (h hst hgoto hrest).mono fun st' hst' => hst'.climb 12 fun t ht => ?_
    have ht := List.all_eq_true.1 hrises t ht
    rw [Bool.and_eq_true] at ht
    exact ⟨List.contains_iff_mem.1 ht.1, beq_iff_eq.1 ht.2⟩
  next => cases hrises

/-! ## Words by themselves -/

/-- The word may start an operand, and is reduced by the rule in front of all that may follow. -/
def startsOperand (t : Terminal) (r : Rule) : Bool :=
  operandStates.all fun q =>
    match (row q).shifts.lookup t with
    | some k => height k == 11 && (followers q .atom).all fun t' => calledFor? k t' == some r
    | none => false

theorem goto_atom (h : st.state ∈ operandStates) : goto? st.state .atom = some 14 := by
  have hall : ∀ q ∈ operandStates, goto? q .atom = some 14 := by decide
  exact hall _ h

/-- A word that is an expression by itself. -/
theorem reads_leaf {r : Rule} (hscan : ∀ rest, EndsWord rest → Scans t text rest)
    (htext : text ≠ [])
    (hname : t = .name → String.ofList text ≠ "function" ∧ String.ofList text ≠ "return")
    (hstarts : startsOperand t r = true) (hsize : r.size = 1) (hleft : r.left = .atom)
    (hbuild : ∀ w l, w.text = String.ofList text →
      ∃ e', r.build l [.token w] = some (.expr e') ∧ e'.bare = e.bare) :
    Reads e text .atom := by
  intro st rest n hst hgoto hrest
  have hstart := List.all_eq_true.1 hstarts _ hst
  split at hstart
  next k hshift =>
    obtain ⟨hheight, hfollowers⟩ := Bool.and_eq_true_iff.1 hstart
    have hword := consumes_word (hscan rest hrest) htext hname
      (actionable_of_shift hshift) fun _ => settle_shift hshift
    refine hword.mono fun st' hst' => ?_
    obtain ⟨w, l, hw, rfl⟩ := hst'
    obtain ⟨e', hbuild, he'⟩ := hbuild w l hw
    refine ⟨.expr e', l, ⟨e', rfl, he'⟩, fun t' ht' => ?_⟩
    have hcalled : calledFor? k t' = some r := by
      simpa using List.all_eq_true.1 hfollowers t' ht'
    rw [goto_atom hst] at hgoto
    cases hgoto
    have hk : height k = 11 := by simpa using hheight
    exact ⟨actionable_of_calledFor hcalled, fun here => settle_single hcalled hsize hbuild
      (hleft ▸ goto_atom hst) (by decide) (by rw [hk]; decide)⟩
  next => cases hstart

theorem reads_var {x : String} (hx : IsIdentifier x) (l : Option Loc) :
    Reads (.var x l) x.toList .atom := by
  refine reads_leaf (r := .var) (fun _ => scans_name hx) hx.toList_ne_nil (fun _ => hx.not_keyword)
    (by decide) rfl rfl ?_
  intro w l' hw
  refine ⟨_, rfl, ?_⟩
  rw [hw, String.ofList_toList]
  rfl

theorem reads_string {s : String} (hs : ∀ c ∈ s.toList, c ≠ '"' ∧ c ≠ '\\' ∧ c ≠ '\n')
    (l : Option Loc) : Reads (.string s l) ('"' :: s.toList ++ ['"']) .atom := by
  refine reads_leaf (r := .string) (fun rest _ => scans_string hs rest) (by simp) nofun (by decide)
    rfl rfl ?_
  intro w l' hw
  refine ⟨_, rfl, ?_⟩
  rw [hw, literalText_of_plain fun h => (hs _ h).2.1 rfl]
  rfl

theorem reads_natural (n : Nat) (l : Option Loc) :
    Reads (.integer n l) (Nat.toDigits 10 n) .atom := by
  refine reads_leaf (r := .decimal) (fun _ => scans_decimal Nat.toDigits_ne_nil fun d hd =>
    Nat.isDigit_of_mem_toDigits (by decide) (by decide) hd) Nat.toDigits_ne_nil nofun (by decide)
    rfl rfl ?_
  intro w l' hw
  refine ⟨_, rfl, ?_⟩
  rw [hw, decimalValue_toDigits]
  rfl

theorem reads_hexadecimal (width n : Nat) (l : Option Loc) :
    Reads (.integer n l) ('0' :: 'x' :: Text.upperHexPadded width n) .atom := by
  refine reads_leaf (r := .hexadecimal) (fun _ => scans_hexadecimal
    (Text.upperHexPadded_ne_nil width n) fun _ => Text.isHexDigit_of_mem_upperHexPadded) (by simp)
    nofun (by decide) rfl rfl ?_
  intro w l' hw
  refine ⟨_, rfl, ?_⟩
  rw [hw, hexadecimalValue_upperHexPadded]
  rfl

/-! ## Signs -/

/-- The shift of a sign that may start an operand anywhere. -/
def opens (t : Terminal) (k : State) : Bool :=
  operandStates.all fun q => (row q).shifts.lookup t == some k

theorem lookup_of_opens (h : opens t k = true) (hst : st.state ∈ operandStates) :
    (row st.state).shifts.lookup t = some k := by
  simpa using List.all_eq_true.1 h _ hst

theorem goto_ne_accepting (hst : st.state ∈ operandStates) (hkind : kind ∈ kinds)
    (hgoto : goto? st.state kind = some n) : n ≠ accepting := by
  have hall : ∀ q ∈ operandStates, ∀ kind ∈ kinds, goto? q kind ≠ some accepting := by decide
  rintro rfl
  exact hall _ hst _ hkind hgoto

/-- A minus sign makes the number after it negative. -/
theorem reads_negative (n : Nat) (l : Option Loc) :
    Reads (.integer (-n) l) ('-' :: Nat.toDigits 10 n) .unary := by
  intro st rest k hst hgoto hrest
  have hfollowers : ∀ q ∈ operandStates, rises 8 .atom (followers q .unary) 32 = true ∧
      ∀ t ∈ followers q .unary, calledFor? 32 t = some .minus := by decide
  obtain ⟨hrises, hcalled⟩ := hfollowers _ hst
  have hminus := consumes_sign (scans_minus (Nat.toDigits 10 n ++ rest)) (by simp) nofun
    (lookup_of_opens (by decide : opens .minus 8 = true) hst)
  refine hminus.append fun st₁ hst₁ => ?_
  obtain ⟨w, l₁, -, rfl⟩ := hst₁
  refine Consumes.mono ((reads_natural n none).consumes (by decide : (8 : State) ∈ operandStates)
    hrises hrest) fun st₂ hst₂ => ?_
  refine hst₂.join [⟨8, .token w, l₁⟩] (r := .minus) hcalled rfl rfl ?_ hgoto
    (goto_ne_accepting hst (by decide) hgoto)
  rintro m ⟨e, rfl, he⟩
  cases e with
  | integer n' l' =>
    cases he
    exact ⟨_, rfl, _, rfl, rfl⟩
  | _ => cases he

/-! ## Parentheses -/

/-- Between parentheses, the text is read as an expression. -/
def ReadsInside (e : Expr) (text : List Char) : Prop :=
  ∀ ⦃st rest⦄, st.state = 6 → Consumes st text (')' :: rest) (Completes st [.rpar] 29 (Says e))

theorem Reads.inside (h : Reads e text kind) (hkind : kind ∈ kinds) : ReadsInside e text := by
  intro st rest hst
  have hrises : ∀ kind ∈ kinds, rises 6 kind [.rpar] 29 = true := by decide
  exact h.consumes (hst ▸ by decide) (hst ▸ hrises kind hkind) (endsWord_cons rfl rest)

theorem reads_parenthesized (h : ReadsInside e text) : Reads e ('(' :: (text ++ [')'])) .atom := by
  intro st rest n hst hgoto hrest
  have hfollowers : ∀ q ∈ operandStates, ∀ t ∈ followers q .atom,
      calledFor? 46 t = some .parenthesized := by decide
  have hopen := consumes_sign (scans_lpar (text ++ [')'] ++ rest)) (by simp) nofun
    (lookup_of_opens (by decide : opens .lpar 6 = true) hst)
  refine hopen.append fun st₁ hst₁ => ?_
  obtain ⟨w, l, -, rfl⟩ := hst₁
  refine Consumes.append (h rfl) fun st₂ hst₂ => ?_
  have hclose := hst₂.consumes_sign (List.mem_singleton_self _)
    (rfl : (row 29).shifts.lookup .rpar = some 46) (scans_rpar rest) (by simp) nofun
  refine hclose.mono fun st₃ hst₃ => ?_
  obtain ⟨m, l', hm, w', l'', -, rfl⟩ := hst₃
  obtain ⟨e', rfl, he'⟩ := hm
  exact completes_closed [⟨29, .expr e', l'⟩, ⟨6, .token w, l⟩] (hfollowers _ hst) rfl rfl rfl
    ⟨e', rfl, he'⟩ hgoto (goto_ne_accepting hst (by decide) hgoto)

/-! ## Operations and comparisons -/

/-- A sign with a blank on each side. -/
def spaced (sign : List Char) : List Char := ' ' :: (sign ++ [' '])

theorem Completes.consumes_spaced (h : Completes st ts n M st') (ht : t ∈ ts)
    (hshift : (row n).shifts.lookup t = some k) {sign : List Char}
    (hscan : ∀ rest, Scans t sign (' ' :: rest)) (hsign : sign ≠ []) (hname : t ≠ .name)
    (rest : List Char) :
    Consumes st' (spaced sign) rest fun st'' =>
      ∃ m l, M m ∧ Shifted k sign (⟨n, m, l⟩ :: st) st'' := by
  refine Consumes.cons (consumes_blank st' _) fun st₁ hst₁ => ?_
  subst hst₁
  refine Consumes.append (h.consumes_sign ht hshift (hscan rest) hsign hname) fun st₂ hst₂ => ?_
  refine (consumes_blank st₂ rest).mono fun st₃ hst₃ => ?_
  subst hst₃
  exact hst₂

end AchievementLang.Grammar

namespace AchievementLang.Operator

open Grammar

/-- The state in which an operation in parentheses waits for its sign. -/
def waiting : Operator → State
  | .add | .sub => 24
  | .mul | .div | .mod => 20

/-- The state after the sign of an operation. -/
def shifted : Operator → State
  | .add => 44
  | .sub => 43
  | .mul => 41
  | .div => 40
  | .mod => 39

/-- The state after the second operand. -/
def joined : Operator → State
  | .add => 63
  | .sub => 62
  | .mul => 60
  | .div => 59
  | .mod => 58

/-- What the tables say of an operation in parentheses. -/
theorem table (op : Operator) :
    (∀ kind ∈ operandKinds, rises 6 kind [op.terminal] op.waiting = true ∧
      rises op.shifted kind [.rpar] op.joined = true) ∧
    (row op.waiting).shifts.lookup op.terminal = some op.shifted ∧
    op.shifted ∈ operandStates ∧ calledFor? op.joined .rpar = some (.math op) ∧
    goto? 6 (Rule.math op).left = some op.waiting ∧
    climb .rpar 6 12 op.waiting = climb .rpar 6 12 29 := by
  cases op <;> decide

end AchievementLang.Operator

namespace AchievementLang.Grammar

variable {e a b : Expr} {text ta tb rest : List Char} {kind ka kb : Nonterminal} {st st' : Stack}

theorem reads_math (op : Operator) (ha : Reads a ta ka) (hb : Reads b tb kb)
    (hka : ka ∈ operandKinds) (hkb : kb ∈ operandKinds) (l : Option Loc) :
    Reads (.math op a b l) ('(' :: (ta ++ (spaced op.symbol.toList ++ tb) ++ [')'])) .atom := by
  refine reads_parenthesized fun st rest hst => ?_
  obtain ⟨hrises, hshift, hshifted, hcalled, hgoto, hclimb⟩ := op.table
  have hop : op.terminal ≠ .name := by cases op <;> nofun
  have hsymbol : op.symbol.toList ≠ [] := by cases op <;> decide
  refine Consumes.append (ha.consumes (hst ▸ by decide) (hst ▸ (hrises ka hka).1)
    (endsWord_cons rfl _)) fun st₁ hst₁ => ?_
  refine Consumes.append (hst₁.consumes_spaced (List.mem_singleton_self _) hshift
    (scans_operator op) hsymbol hop _) fun st₂ hst₂ => ?_
  obtain ⟨m, l', hm, w, l'', -, rfl⟩ := hst₂
  refine Consumes.mono (hb.consumes hshifted (hrises kb hkb).2 (endsWord_cons rfl rest))
    fun st₃ hst₃ => ?_
  have hjoin : Completes st [.rpar] op.waiting (Says (.math op a b l)) st₃ := by
    refine hst₃.join [⟨op.shifted, .token w, l''⟩, ⟨op.waiting, m, l'⟩]
      (fun t ht => List.mem_singleton.1 ht ▸ hcalled) rfl rfl ?_ (hst ▸ hgoto) ?_
    · rintro _ ⟨b', rfl, hb'⟩
      obtain ⟨a', rfl, ha'⟩ := hm
      exact ⟨_, rfl, _, rfl, by rw [Expr.bare, Expr.bare, ha', hb']⟩
    · cases op <;> decide
  refine hjoin.climb 12 fun t ht => ⟨ht, ?_⟩
  rw [List.mem_singleton.1 ht, hst]
  exact hclimb

theorem reads_compare (r : Relation) (ha : Reads a ta ka) (hb : Reads b tb kb)
    (hka : ka ∈ operandKinds) (hkb : kb ∈ operandKinds) (l : Option Loc) :
    Reads (.compare r a b l) (ta ++ (spaced r.symbol.toList ++ tb)) .comparison := by
  intro st rest n hst hgoto hrest
  have htable : ∀ q ∈ operandStates, (goto? q .comparison).isSome = true →
      (∀ kind ∈ operandKinds, rises q kind [.relation] 24 = true ∧
        rises 42 kind (followers q .comparison) 61 = true) ∧
      ∀ t ∈ followers q .comparison, calledFor? 61 t = some .compare := by decide
  obtain ⟨hrises, hcalled⟩ := htable _ hst (hgoto ▸ rfl)
  refine Consumes.append (ha.consumes hst (hrises ka hka).1 (endsWord_cons rfl _))
    fun st₁ hst₁ => ?_
  refine Consumes.append (hst₁.consumes_spaced (List.mem_singleton_self _)
    (rfl : (row 24).shifts.lookup .relation = some 42) (scans_relation r)
    (by cases r <;> decide) nofun _) fun st₂ hst₂ => ?_
  obtain ⟨m, l', hm, w, l'', hw, rfl⟩ := hst₂
  refine Consumes.mono (hb.consumes (by decide : (42 : State) ∈ operandStates) (hrises kb hkb).2
    hrest) fun st₃ hst₃ => ?_
  refine hst₃.join [⟨42, .token w, l''⟩, ⟨24, m, l'⟩] (r := .compare) hcalled rfl rfl ?_
    hgoto (goto_ne_accepting hst (by decide) hgoto)
  rintro _ ⟨b', rfl, hb'⟩
  obtain ⟨a', rfl, ha'⟩ := hm
  have hr : Relation.ofSymbol? w.text = some r := by
    rw [hw, String.ofList_toList]
    cases r <;> rfl
  refine ⟨.expr (.compare r a' b' (some l')), ?_, _, rfl, by rw [Expr.bare, Expr.bare, ha', hb']⟩
  change (Relation.ofSymbol? w.text).map _ = _
  rw [hr]
  rfl

/-! ## Negations -/

theorem reads_not (h : ReadsInside e text) (l : Option Loc) :
    Reads (.not e l) ('!' :: '(' :: (text ++ [')'])) .negation := by
  intro st rest n hst hgoto hrest
  have htable : ∀ q ∈ operandStates, (goto? q .negation).isSome = true →
      (row q).shifts.lookup .bang = some 1 ∧ rises 1 .atom (followers q .negation) 27 = true ∧
      ∀ t ∈ followers q .negation, calledFor? 27 t = some .not := by decide
  obtain ⟨hbang, hrises, hcalled⟩ := htable _ hst (hgoto ▸ rfl)
  refine Consumes.cons (consumes_sign (scans_bang _) (by simp) nofun hbang)
    fun st₁ hst₁ => ?_
  obtain ⟨w, l₁, -, rfl⟩ := hst₁
  refine Consumes.mono ((reads_parenthesized h).consumes (by decide : (1 : State) ∈ operandStates)
    hrises hrest) fun st₂ hst₂ => ?_
  refine hst₂.join [⟨1, .token w, l₁⟩] (r := .not) hcalled rfl rfl ?_ hgoto
    (goto_ne_accepting hst (by decide) hgoto)
  rintro _ ⟨e', rfl, he'⟩
  exact ⟨_, rfl, _, rfl, by rw [Expr.bare, Expr.bare, he']⟩

end AchievementLang.Grammar

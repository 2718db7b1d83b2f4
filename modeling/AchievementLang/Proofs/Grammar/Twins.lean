import AchievementLang.Proofs.Grammar.Connectives
import AchievementLang.Proofs.Grammar.Settling

/-!
# One value in place of another

A script that starts by assigning a number is read just like one that assigns a string there: the
words have the same uses, and what follows never looks at the value, unless it is made part of an
operation, and then the first statement is no longer that assignment.

Two stacks of the parser are `Twins` if they differ in one symbol only, the value or what has been
made of it: the first statement, or the list that it starts. What stands for what there is said by
`Stands`. A rule that ends above the symbol is applied alike (`Twins.reduce_above`), one that takes
it puts a phrase in its place that stands for as much (`Twins.reduce_through`). So twins settle as
twins in front of every word (`Twins.settle`), and all that is read on one of them is read on the
other (`Twins.parseFrom`).
-/

namespace AchievementLang.Grammar

variable {old new e e' : Expr} {es : List Expr} {r : Rule} {loc here l : Loc} {ms : List Meaning}
  {m m' : Meaning} {st st' above below next : Stack} {t : Terminal} {k q : State}

/-! ## States -/

/-- Only the whole script leads to the accepting state, and nothing leads to the first one. -/
theorem targets_row (q : State) :
    (∀ p ∈ (row q).shifts, p.2 ≠ 0 ∧ p.2 ≠ accepting) ∧
      ∀ p ∈ (row q).gotos, p.2 ≠ 0 ∧ (q ≠ 0 → p.2 ≠ accepting) := by
  unfold row
  split <;> first | decide | exact ⟨nofun, nofun⟩

/-- The symbol is not the whole script, and does not stand for an empty stack. -/
def Entry.IsInner (e : Entry) : Prop := e.state ≠ 0 ∧ e.state ≠ accepting

/-! ## Rules by their first symbols -/

/-- The node is neither a number nor an assignment. -/
def IsOperation (e : Expr) : Prop := e.integer? = none ∧ ∀ x v l, e ≠ .assign x v l

/-- A rule whose first symbol is an expression keeps it, makes it part of an operation, or starts a
list with it. -/
theorem Rule.build_expr (h : r.build loc (.expr e :: ms) = some m) :
    (∃ node : Expr → Expr, (∀ e, r.build loc (.expr e :: ms) = some (.expr (node e))) ∧
      (node = id ∨ ∀ e, IsOperation (node e))) ∨
    ∃ es, (∀ e, r.build loc (.expr e :: ms) = some (.exprs (e :: es))) ∧
      goto? 33 r.left = none := by
  unfold Rule.build at h
  split at h
  -- Rules whose first symbol is something else are out.
  all_goals try (rename_i heq; cases heq)
  next => exact .inl ⟨id, fun _ => rfl, .inl rfl⟩
  next => exact .inr ⟨[], fun _ => rfl, rfl⟩
  next op t b =>
    exact .inl ⟨fun a => joinConditions op a b (some loc), fun _ => rfl,
      .inr fun _ => ⟨rfl, nofun⟩⟩
  next sign b =>
    obtain ⟨rel, hrel, -⟩ := Option.map_eq_some_iff.1 h
    exact .inl ⟨fun a => .compare rel a b (some loc), fun _ => by rw [build, hrel]; rfl,
      .inr fun _ => ⟨rfl, nofun⟩⟩
  next op t b =>
    exact .inl ⟨fun a => .math op a b (some loc), fun _ => rfl, .inr fun _ => ⟨rfl, nofun⟩⟩
  next es => exact .inr ⟨es, fun _ => rfl, rfl⟩
  next => exact .inr ⟨[], fun _ => rfl, rfl⟩
  next => cases h

/-- A rule whose first symbol is a list adds to its end at most. -/
theorem Rule.build_exprs (h : r.build loc (.exprs (e :: es) :: ms) = some m) :
    ∃ es', ∀ e, r.build loc (.exprs (e :: es) :: ms) = some (.exprs (e :: es')) := by
  unfold Rule.build at h
  split at h
  all_goals try (rename_i heq; cases heq)
  next => exact ⟨es, fun _ => rfl⟩
  next => exact ⟨es, fun _ => rfl⟩
  next e' => exact ⟨es ++ [e'], fun _ => rfl⟩
  next t e' => exact ⟨es ++ [e'], fun _ => rfl⟩
  next t e' => exact ⟨es ++ [e'], fun _ => rfl⟩
  next => cases h

/-- Of the rules with two words before an expression, a script starts with an assignment only. -/
theorem Rule.build_tokens {x sign : Token}
    (h : r.build loc (.token x :: .token sign :: .expr e :: ms) = some m)
    (hgoto : goto? 0 r.left = some k) : r = .assignment ∧ ms = [] := by
  unfold Rule.build at h
  split at h
  all_goals try (rename_i heq; cases heq)
  next => exact ⟨rfl, rfl⟩
  next => cases hgoto
  next => cases hgoto
  next => cases h

/-! ## Stacks that differ in one symbol -/

/-- If the first expression is a number, it is the old value, and the other is the new one. -/
def Replaced (old new e e' : Expr) : Prop := e.integer?.isSome → e = old ∧ e' = new

/-- If the first statement assigns a number, it is the old value, and the other assigns the new one.
-/
def Reassigned (old new e e' : Expr) : Prop :=
  ∀ x v l, e = .assign x v l → v.integer?.isSome → v = old ∧ e' = .assign x new l

/-- What stands for the value of the first statement of a script, in front of which the stack has
the name in state 9 and the equals sign in state 33, or for the statement with that value. -/
inductive Stands (old new : Expr) : Stack → Meaning → Meaning → Prop
  | value {e e' : Expr} (h : Replaced old new e e') (x sign : Token) (lx lsign : Loc) :
      Stands old new [⟨33, .token sign, lsign⟩, ⟨9, .token x, lx⟩] (.expr e) (.expr e')
  | statement {e e' : Expr} (h : Reassigned old new e e') : Stands old new [] (.expr e) (.expr e')
  | statements {e e' : Expr} (h : Reassigned old new e e') (es : List Expr) :
      Stands old new [] (.exprs (e :: es)) (.exprs (e' :: es))

/-- The stacks differ in one symbol only. -/
inductive Twins (old new : Expr) : Stack → Stack → Prop
  /-- The value is still a word: a number, read in state 2, and a string, read in state 3. -/
  | word {w w' : Token} (hold : old = .integer (decimalValue w.text) (some w.loc))
      (hnew : new = .string (literalText w'.text) (some w'.loc)) (x sign : Token)
      (lx lsign l : Loc) :
      Twins old new [⟨2, .token w, l⟩, ⟨33, .token sign, lsign⟩, ⟨9, .token x, lx⟩]
        [⟨3, .token w', l⟩, ⟨33, .token sign, lsign⟩, ⟨9, .token x, lx⟩]
  | phrase (above : Stack) {below : Stack} {m m' : Meaning} (h : Stands old new below m m')
      (habove : ∀ e ∈ above, e.IsInner) {k : State} (hk : k ≠ 0) (l : Loc) :
      Twins old new (above ++ ⟨k, m, l⟩ :: below) (above ++ ⟨k, m', l⟩ :: below)

/-! ## Reductions -/

/-- Where a phrase of the symbols starts. -/
def startOf (here : Loc) (symbols : Stack) : Loc := (symbols.head?.map (·.start)).getD here

theorem reduce?_eq_some_iff {symbols rest : Stack} (htake : (st.take r.size).reverse = symbols)
    (hdrop : st.drop r.size = rest) :
    reduce? here r st = some next ↔ ∃ m k,
      r.build (startOf here symbols) (symbols.map (·.meaning)) = some m ∧
        goto? rest.state r.left = some k ∧ next = ⟨k, m, startOf here symbols⟩ :: rest := by
  subst htake hdrop
  unfold reduce? startOf
  dsimp only
  split
  next m k hbuild hgoto =>
    constructor
    · rintro ⟨⟩
      exact ⟨m, k, hbuild, hgoto, rfl⟩
    · rintro ⟨m', k', hbuild', hgoto', rfl⟩
      rw [hbuild] at hbuild'
      rw [hgoto] at hgoto'
      cases hbuild'
      cases hgoto'
      rfl
  next hnone =>
    refine iff_of_false nofun ?_
    rintro ⟨m, k, hbuild, hgoto, -⟩
    exact hnone m k hbuild hgoto

theorem goto?_inner {x : Nonterminal} (h : goto? q x = some k) :
    k ≠ 0 ∧ (q ≠ 0 → k ≠ accepting) :=
  (targets_row q).2 _ (mem_of_lookup h)

theorem state_append (above below : Stack) (q : State) (m m' : Meaning) (l : Loc) :
    (above ++ ⟨q, m, l⟩ :: below).state = (above ++ ⟨q, m', l⟩ :: below).state := by
  cases above <;> rfl

theorem state_ne_zero (habove : ∀ e ∈ above, e.IsInner) (hk : k ≠ 0) (m : Meaning) (l : Loc)
    (below : Stack) : (above ++ ⟨k, m, l⟩ :: below).state ≠ 0 := by
  cases above with
  | nil => exact hk
  | cons e above => exact (habove e List.mem_cons_self).1

/-- A rule that ends above the symbol is applied alike. -/
theorem Twins.reduce_above (h : Stands old new below m m') (habove : ∀ e ∈ above, e.IsInner)
    (hk : k ≠ 0) (hsize : r.size ≤ above.length)
    (hnext : reduce? here r (above ++ ⟨k, m, l⟩ :: below) = some next) :
    ∃ next', reduce? here r (above ++ ⟨k, m', l⟩ :: below) = some next' ∧
      Twins old new next next' := by
  have htake (m : Meaning) : ((above ++ ⟨k, m, l⟩ :: below).take r.size).reverse =
      (above.take r.size).reverse := by rw [List.take_append_of_le_length hsize]
  have hdrop (m : Meaning) : (above ++ ⟨k, m, l⟩ :: below).drop r.size =
      above.drop r.size ++ ⟨k, m, l⟩ :: below := List.drop_append_of_le_length hsize
  obtain ⟨m₁, k₁, hbuild, hgoto, rfl⟩ := (reduce?_eq_some_iff (htake m) (hdrop m)).1 hnext
  have hrest : ∀ e ∈ above.drop r.size, e.IsInner := fun e he =>
    habove e (List.mem_of_mem_drop he)
  have hinner := goto?_inner hgoto
  rw [state_append _ _ k m m' l] at hgoto
  refine ⟨_, (reduce?_eq_some_iff (htake m') (hdrop m')).2 ⟨m₁, k₁, hbuild, hgoto, rfl⟩, ?_⟩
  refine Twins.phrase (⟨k₁, m₁, _⟩ :: above.drop r.size) h ?_ hk l
  exact List.forall_mem_cons.2 ⟨⟨hinner.1, hinner.2 (state_ne_zero hrest hk m l below)⟩, hrest⟩

/-- Rules that keep or use the value. -/
theorem Replaced.build (h : Replaced old new e e')
    (hbuild : r.build loc (.expr e :: ms) = some m) (hgoto : goto? 33 r.left = some k) :
    ∃ e₁ e₁', m = .expr e₁ ∧ r.build loc (.expr e' :: ms) = some (.expr e₁') ∧
      Replaced old new e₁ e₁' := by
  obtain ⟨node, hnode, hid | hoperation⟩ | ⟨es, -, hnone⟩ := Rule.build_expr hbuild
  · rw [hnode] at hbuild
    cases hbuild
    exact ⟨_, _, rfl, hnode e', by rwa [hid]⟩
  · rw [hnode] at hbuild
    cases hbuild
    refine ⟨_, _, rfl, hnode e', fun hnumber => ?_⟩
    rw [(hoperation e).1] at hnumber
    cases hnumber
  · rw [hnone] at hgoto
    cases hgoto

/-- Rules that keep or use the first statement, or make it the first of several. -/
theorem Reassigned.build (h : Reassigned old new e e')
    (hbuild : r.build loc (.expr e :: ms) = some m) :
    ∃ m', r.build loc (.expr e' :: ms) = some m' ∧ Stands old new [] m m' := by
  obtain ⟨node, hnode, hid | hoperation⟩ | ⟨es, hes, -⟩ := Rule.build_expr hbuild
  · rw [hnode] at hbuild
    cases hbuild
    exact ⟨_, hnode e', .statement (by rwa [hid])⟩
  · rw [hnode] at hbuild
    cases hbuild
    exact ⟨_, hnode e', .statement fun x v l heq => absurd heq ((hoperation e).2 x v l)⟩
  · rw [hes] at hbuild
    cases hbuild
    exact ⟨_, hes e', .statements h es⟩

/-- What a rule makes of the symbol and of those next to it, if there is a place for it. -/
theorem Stands.build {m₁ : Meaning} (h : Stands old new below m m') (j : Nat)
    (hbuild : r.build loc ((below.take j).reverse.map (·.meaning) ++ m :: ms) = some m₁)
    (hgoto : goto? (Stack.state (below.drop j)) r.left = some k) :
    ∃ m₁', r.build loc ((below.take j).reverse.map (·.meaning) ++ m' :: ms) = some m₁' ∧
      Stands old new (below.drop j) m₁ m₁' := by
  cases h with
  | value h x sign lx lsign =>
    match j with
    | 0 =>
      obtain ⟨e₁, e₁', rfl, hbuild', h₁⟩ := h.build hbuild hgoto
      exact ⟨_, hbuild', .value h₁ x sign lx lsign⟩
    | 1 => cases hgoto
    | j + 2 =>
      simp only [List.take_succ_cons, List.take_nil, List.drop_succ_cons, List.drop_nil]
        at hbuild hgoto ⊢
      obtain ⟨rfl, rfl⟩ := Rule.build_tokens hbuild hgoto
      cases hbuild
      refine ⟨_, rfl, .statement ?_⟩
      rintro _ _ _ ⟨⟩ hnumber
      obtain ⟨rfl, rfl⟩ := h hnumber
      exact ⟨rfl, rfl⟩
  | statement h =>
    simp only [List.take_nil, List.drop_nil] at hbuild ⊢
    exact h.build hbuild
  | statements h es =>
    simp only [List.take_nil, List.drop_nil] at hbuild ⊢
    obtain ⟨es', hes'⟩ := Rule.build_exprs hbuild
    have hm₁ := hbuild.symm.trans (hes' _)
    cases hm₁
    exact ⟨_, hes' _, .statements h es'⟩

/-- A rule that takes the symbol puts a phrase in its place that stands for as much. -/
theorem Twins.reduce_through (h : Stands old new below m m') (hsize : above.length < r.size)
    (hnext : reduce? here r (above ++ ⟨k, m, l⟩ :: below) = some next) :
    ∃ next', reduce? here r (above ++ ⟨k, m', l⟩ :: below) = some next' ∧
      Twins old new next next' := by
  -- Of the symbols of the rule, `j` are below the one in which the stacks differ.
  obtain ⟨j, hj⟩ : ∃ j, r.size = above.length + (j + 1) := ⟨r.size - above.length - 1, by omega⟩
  have htake (m : Meaning) : ((above ++ ⟨k, m, l⟩ :: below).take r.size).reverse =
      (below.take j).reverse ++ ⟨k, m, l⟩ :: above.reverse := by
    simp [hj, List.take_append, List.take_of_length_le]
  have hdrop (m : Meaning) : (above ++ ⟨k, m, l⟩ :: below).drop r.size = below.drop j := by
    simp [hj, List.drop_append, List.drop_of_length_le]
  have hstart (symbols : Stack) : startOf here (symbols ++ ⟨k, m, l⟩ :: above.reverse) =
      startOf here (symbols ++ ⟨k, m', l⟩ :: above.reverse) := by cases symbols <;> rfl
  obtain ⟨m₁, k₁, hbuild, hgoto, rfl⟩ := (reduce?_eq_some_iff (htake m) (hdrop m)).1 hnext
  rw [hstart, List.map_append] at hbuild
  obtain ⟨m₁', hbuild', h₁⟩ := h.build j hbuild hgoto
  rw [hstart]
  refine ⟨_, (reduce?_eq_some_iff (htake m') (hdrop m')).2 ⟨m₁', k₁, ?_, hgoto, rfl⟩,
    Twins.phrase [] h₁ nofun (goto?_inner hgoto).1 _⟩
  rw [List.map_append]
  exact hbuild'

/-- Twins are reduced in front of the same words, while the value is a word by different rules. -/
theorem Twins.reduce? (h : Twins old new st st') {followers : List Terminal}
    (hr : (row st.state).reduction = some (r, followers))
    (hnext : Grammar.reduce? here r st = some next) :
    ∃ r' next', (row st'.state).reduction = some (r', followers) ∧
      Grammar.reduce? here r' st' = some next' ∧ Twins old new next next' := by
  cases h with
  | @word w w' hold hnew x sign lx lsign l =>
    cases hr
    cases hnext
    exact ⟨.string, _, rfl, rfl, .phrase []
      (.value (fun _ => ⟨hold.symm, hnew.symm⟩) x sign lx lsign) nofun (by decide) l⟩
  | @phrase above below m m' h habove k hk l =>
    rw [state_append above below k m m' l] at hr
    obtain hsize | hsize := Nat.lt_or_ge above.length r.size
    · obtain ⟨next', hnext', htwins⟩ := reduce_through h hsize hnext
      exact ⟨r, next', hr, hnext', htwins⟩
    · obtain ⟨next', hnext', htwins⟩ := reduce_above h habove hk hsize hnext
      exact ⟨r, next', hr, hnext', htwins⟩

/-! ## Words -/

/-- The next word has the same use. -/
theorem Twins.shifts_eq (h : Twins old new st st') :
    (row st.state).shifts = (row st'.state).shifts := by
  cases h with
  | word => rfl
  | phrase => rw [state_append]

theorem Twins.actionable_eq (h : Twins old new st st') :
    actionable st.state = actionable st'.state := by
  cases h with
  | word => rfl
  | phrase => rw [state_append]

theorem Twins.potential_eq (h : Twins old new st st') : st.potential = st'.potential := by
  cases h with
  | word => rfl
  | @phrase above below m m' h habove k hk l =>
    rw [Stack.potential, Stack.potential, state_append above below k m m' l, List.length_append,
      List.length_append, List.length_cons, List.length_cons]

/-- Both stacks are complete, or neither is. -/
theorem Twins.complete_or (h : Twins old new st st') :
    (∃ es es' l l' below below', st = ⟨22, .exprs es, l⟩ :: below ∧
      st' = ⟨22, .exprs es', l'⟩ :: below' ∧ Stands old new [] (.exprs es) (.exprs es')) ∨
    ((∀ es l below, st ≠ ⟨22, .exprs es, l⟩ :: below) ∧
      ∀ es l below, st' ≠ ⟨22, .exprs es, l⟩ :: below) := by
  cases h with
  | word => exact .inr ⟨nofun, nofun⟩
  | @phrase above below m m' h habove k hk l =>
    cases above with
    | nil =>
      cases h with
      | value => exact .inr ⟨nofun, nofun⟩
      | statement => exact .inr ⟨nofun, nofun⟩
      | statements h es =>
        by_cases hk : k = accepting
        · exact .inl ⟨_, _, l, l, [], [], by rw [hk]; rfl, by rw [hk]; rfl, .statements h es⟩
        · refine .inr ⟨?_, ?_⟩ <;>
            · rintro _ _ _ ⟨⟩
              exact hk rfl
    | cons e above =>
      have he := (habove e List.mem_cons_self).2
      refine .inr ⟨?_, ?_⟩ <;>
        · rintro _ _ _ ⟨⟩
          exact he rfl

/-- What the second stack becomes follows what the first one becomes, unless that is refused. -/
def Settled.Follows (old new : Expr) : Settled → Settled → Prop
  | .shift k st, settled =>
    (k ≠ 0 ∧ k ≠ accepting) ∧ ∃ st', settled = .shift k st' ∧
      ∀ e : Entry, e.IsInner → Twins old new (e :: st) (e :: st')
  | .complete es, settled =>
    ∃ es', settled = .complete es' ∧ Stands old new [] (.exprs es) (.exprs es')
  | .refused _, _ | .stuck, _ => True

theorem Twins.follows_shift (h : Twins old new st st')
    (hshift : (row st.state).shifts.lookup t = some k) :
    Settled.Follows old new (.shift k st) (settle here t st') := by
  refine ⟨(targets_row _).1 _ (mem_of_lookup hshift), st', ?_, fun e he => ?_⟩
  · exact settle_shift (by rwa [← h.shifts_eq])
  · cases h with
    | word => cases hshift
    | phrase above h habove hk l =>
      exact .phrase (e :: above) h (List.forall_mem_cons.2 ⟨he, habove⟩) hk l

/-- **Stacks that differ in one symbol** become such stacks in front of every word. -/
theorem Twins.settle (h : Twins old new st st') (here : Loc) (t : Terminal) :
    Settled.Follows old new (Grammar.settle here t st) (Grammar.settle here t st') := by
  fun_induction Grammar.settle here t st generalizing st' with
  | case1 st k hshift => exact h.follows_shift hshift
  | case2 | case3 | case7 => trivial
  | case4 st hshift r followers hreduction hfollows es start below hnext =>
    obtain ⟨r', next', hreduction', hnext', htwins⟩ := h.reduce? hreduction hnext
    rw [h.shifts_eq] at hshift
    rw [Grammar.settle, hshift, hreduction']
    dsimp only
    rw [if_pos hfollows, hnext']
    obtain ⟨_, es', _, _, _, _, ⟨⟩, rfl, hes⟩ | ⟨hcomplete, -⟩ := htwins.complete_or
    · exact ⟨es', rfl, hes⟩
    · exact absurd rfl (hcomplete es start below)
  | case5 st hshift r followers hreduction hfollows next hnext hpotential hcomplete ih =>
    obtain ⟨r', next', hreduction', hnext', htwins⟩ := h.reduce? hreduction hnext
    rw [h.shifts_eq] at hshift
    have hsettle : Grammar.settle here t st' = Grammar.settle here t next' := by
      rw [Grammar.settle, hshift, hreduction']
      dsimp only
      rw [if_pos hfollows, hnext']
      obtain ⟨es, _, l, _, below, _, hes, -⟩ | ⟨-, hnone⟩ := htwins.complete_or
      · exact absurd hes (hcomplete es l below)
      · dsimp only
        split
        next es l below => exact absurd rfl (hnone es l below)
        next => rw [if_pos (by rwa [← htwins.potential_eq, ← h.potential_eq])]
    rw [if_pos hpotential, hsettle]
    exact ih htwins
  | case6 st hshift r followers hreduction hfollows next hnext hpotential =>
    rw [if_neg hpotential]
    trivial

/-! ## Scripts -/

theorem Twins.takeMatch {c next : Cursor} {p : Pattern} {text : List Char}
    (h : Twins old new c.stack st') (hnext : Grammar.takeMatch c p text = .ok next) :
    ∃ st'', Grammar.takeMatch { c with stack := st' } p text = .ok { next with stack := st'' } ∧
      Twins old new next.stack st'' := by
  unfold Grammar.takeMatch at hnext ⊢
  dsimp only
  split at hnext
  next t =>
    rw [← h.actionable_eq]
    have hfollows := h.settle c.here (retype (actionable c.stack.state) t (String.ofList text))
    simp only [takeWord] at hnext ⊢
    split at hnext
    next hsettle =>
      cases hnext
      rw [hsettle] at hfollows
      obtain ⟨htarget, st'', hshift, htwins⟩ := hfollows
      rw [hshift]
      exact ⟨_, rfl, htwins _ htarget⟩
    all_goals cases hnext
  next =>
    cases hnext
    exact ⟨st', rfl, h⟩

theorem Twins.takeEnd {c : Cursor} (h : Twins old new c.stack st')
    (hend : Grammar.takeEnd c = .ok es) :
    ∃ es', Grammar.takeEnd { c with stack := st' } = .ok es' ∧
      Stands old new [] (.exprs es) (.exprs es') := by
  have hfollows := h.settle c.lastWord .finish
  unfold Grammar.takeEnd at hend ⊢
  split at hend
  next hsettle =>
    cases hend
    rw [hsettle] at hfollows
    obtain ⟨es', hcomplete, hes⟩ := hfollows
    exact ⟨es', by dsimp only; rw [hcomplete], hes⟩
  all_goals cases hend

/-- **Twin stacks read the same script.** -/
theorem Twins.parseFrom {c : Cursor} {cs : List Char} (h : Twins old new c.stack st')
    (hparse : Grammar.parseFrom c cs = .ok es) :
    ∃ es', Grammar.parseFrom { c with stack := st' } cs = .ok es' ∧
      Stands old new [] (.exprs es) (.exprs es') := by
  fun_induction Grammar.parseFrom c cs generalizing st' with
  | case1 c cs hempty =>
    rw [Grammar.parseFrom, if_pos hempty]
    exact h.takeEnd hparse
  | case2 | case3 | case5 => cases hparse
  | case4 c cs hempty p text rest hscan next hnext hshorter ih =>
    obtain ⟨st'', hnext', htwins⟩ := h.takeMatch hnext
    rw [h.actionable_eq] at hscan
    rw [Grammar.parseFrom, if_neg hempty, hscan]
    dsimp only
    rw [hnext']
    dsimp only
    rw [dif_pos hshorter]
    exact ih htwins hparse

end AchievementLang.Grammar

import AchievementLang.Grammar.Parser
import AchievementLang.Proofs.Grammar.Words

/-!
# Phrases on the stack

What the parser has read of a phrase is reduced only when the next word calls for it, so the stack
after the words of a phrase depends on what follows. `Completes st ts n M st'` says what all of
these stacks have in common: in front of each of the words `ts`, the stack `st'` goes on like `st`
with one phrase on it, in state `n` and with a meaning as `M` says.

A phrase that is a phrase of another kind by itself is renamed, again and again, up to the kind that
the next word calls for. How far is computed from the states alone (`climb`), and the stacks follow
(`settle_climb`). A rule that joins several symbols is taken step by step (`settle_join`).

`Consumes st text rest P` then is the triple of reading `text` in front of `rest`: the parser goes
from the stack `st` to one with `P`, wherever the text stands in the script.
-/

namespace AchievementLang.Grammar

variable {here : Loc} {t : Terminal} {st below : Stack} {r : Rule} {n k : State} {m : Meaning}
  {l : Loc}

/-! ## One reduction -/

/-- The rule that a word calls for in a state. -/
def calledFor? (q : State) (t : Terminal) : Option Rule :=
  match (row q).shifts.lookup t, (row q).reduction with
  | none, some (r, followers) => if followers.contains t then some r else none
  | _, _ => none

theorem settle_shift (h : (row st.state).shifts.lookup t = some k) :
    settle here t st = .shift k st := by
  rw [settle, h]

theorem settle_reduce {e : Entry} (hr : calledFor? st.state t = some r)
    (hnext : reduce? here r st = some (e :: below)) (he : e.state ≠ accepting)
    (hpotential : Stack.potential (e :: below) < st.potential) :
    settle here t st = settle here t (e :: below) := by
  unfold calledFor? at hr
  split at hr
  next r' followers hshift hreduction =>
    split at hr
    next hfollows =>
      cases hr
      rw [settle, hshift, hreduction]
      dsimp only
      rw [if_pos hfollows, hnext]
      split
      next h => cases h
      next h =>
        cases h
        split
        next h =>
          cases h
          exact absurd rfl he
        next => rw [if_pos hpotential]
    next => cases hr
  next => cases hr

theorem actionable_of_calledFor (h : calledFor? n t = some r) : actionable n t = true := by
  unfold calledFor? at h
  split at h
  next followers _ hreduction =>
    split at h
    next hfollows => simp only [actionable, hreduction, hfollows, Bool.or_true]
    next => cases h
  next => cases h

theorem mem_of_lookup {α β : Type} [BEq α] [LawfulBEq α] {ps : List (α × β)} {a : α} {b : β}
    (h : ps.lookup a = some b) : (a, b) ∈ ps := by
  obtain ⟨before, after, heq, -⟩ := List.lookup_eq_some_iff.1 h
  simp [heq]

theorem actionable_of_shift (h : (row n).shifts.lookup t = some k) : actionable n t = true := by
  have hany : (row n).shifts.any (·.1 == t) = true :=
    List.any_eq_true.2 ⟨_, mem_of_lookup h, beq_self_eq_true t⟩
  rw [actionable, hany, Bool.true_or]

theorem height_le (n : State) : height n ≤ 11 := by
  unfold height
  split <;> decide

/-- A rule takes its symbols from the stack, whatever is below them. -/
theorem reduce?_append (es below : Stack) {start : Loc} (hsize : es.length = r.size)
    (hstart : es.reverse.head?.map (·.start) = some start)
    (hbuild : r.build start (es.reverse.map (·.meaning)) = some m)
    (hgoto : goto? below.state r.left = some n) :
    reduce? here r (es ++ below) = some (⟨n, m, start⟩ :: below) := by
  have htake : (es ++ below).take r.size = es := by rw [← hsize, List.take_left]
  have hdrop : (es ++ below).drop r.size = below := by rw [← hsize, List.drop_left]
  rw [reduce?, htake, hdrop, hstart, Option.getD_some, hbuild, hgoto]

/-- **A rule that joins symbols** puts its phrase in their place. -/
theorem settle_join (es below : Stack) {start : Loc} (hsize : es.length = r.size)
    (htwo : 2 ≤ r.size) (hr : calledFor? (Stack.state (es ++ below)) t = some r)
    (hstart : es.reverse.head?.map (·.start) = some start)
    (hbuild : r.build start (es.reverse.map (·.meaning)) = some m)
    (hgoto : goto? below.state r.left = some n) (hn : n ≠ accepting) :
    settle here t (es ++ below) = settle here t (⟨n, m, start⟩ :: below) := by
  refine settle_reduce hr (reduce?_append es below hsize hstart hbuild hgoto) hn ?_
  have hheight := height_le n
  simp only [Stack.potential, List.length_append, List.length_cons, hsize, Stack.state]
  omega

/-- A rule of one symbol puts its phrase in the place of the symbol, in a state of less height. -/
theorem settle_single {m' : Meaning} {n' : State} (hr : calledFor? n t = some r)
    (hsize : r.size = 1) (hbuild : r.build l [m] = some m')
    (hgoto : goto? st.state r.left = some n') (hn' : n' ≠ accepting)
    (hheight : height n' < height n) :
    settle here t (⟨n, m, l⟩ :: st) = settle here t (⟨n', m', l⟩ :: st) := by
  refine settle_reduce hr (reduce?_append [⟨n, m, l⟩] st hsize.symm rfl hbuild hgoto) hn' ?_
  simp only [Stack.potential, List.length_cons, Stack.state]
  omega

/-! ## Renaming -/

/-- The state of a phrase on a stack in state `q` that is renamed once, if the word calls for it. -/
def rename? (t : Terminal) (q n : State) : Option State :=
  match calledFor? n t with
  | some (.pass left) =>
    (goto? q left).filter fun n' => decide (n' ≠ accepting ∧ height n' < height n)
  | _ => none

/-- The state of a phrase that is renamed as often as the word calls for it. -/
def climb (t : Terminal) (q : State) : Nat → State → State
  | 0, n => n
  | fuel + 1, n =>
    match rename? t q n with
    | some n' => climb t q fuel n'
    | none => n

theorem settle_rename {n' : State} (h : rename? t st.state n = some n') :
    settle here t (⟨n, m, l⟩ :: st) = settle here t (⟨n', m, l⟩ :: st) := by
  unfold rename? at h
  split at h
  next left hr =>
    obtain ⟨hgoto, hn'⟩ := Option.filter_eq_some_iff.1 h
    obtain ⟨hn', hheight⟩ := of_decide_eq_true hn'
    exact settle_single hr rfl rfl hgoto hn' hheight
  next => cases h

theorem settle_climb (fuel : Nat) :
    settle here t (⟨n, m, l⟩ :: st) = settle here t (⟨climb t st.state fuel n, m, l⟩ :: st) := by
  induction fuel generalizing n with
  | zero => rfl
  | succ fuel ih =>
    rw [climb]
    split
    next n' h => rw [settle_rename h, ih]
    next => rfl

/-! ## Phrases -/

/-- In front of each of the words, the stack goes on like one with a phrase on it. -/
def Completes (st : Stack) (ts : List Terminal) (n : State) (M : Meaning → Prop)
    (st' : Stack) : Prop :=
  ∃ m l, M m ∧ ∀ t ∈ ts, actionable st'.state t = true ∧
    ∀ here, settle here t st' = settle here t (⟨n, m, l⟩ :: st)

variable {ts ts' : List Terminal} {M M' : Meaning → Prop} {st' : Stack}

/-- The phrase on the stack is reduced to another one. -/
theorem Completes.trans (h : Completes st ts n M st') (hsub : ∀ t ∈ ts', t ∈ ts)
    (hstep : ∀ m l, M m → ∃ m' l', M' m' ∧ ∀ t ∈ ts', ∀ here,
      settle here t (⟨n, m, l⟩ :: st) = settle here t (⟨k, m', l'⟩ :: below)) :
    Completes below ts' k M' st' := by
  obtain ⟨m, l, hm, hst'⟩ := h
  obtain ⟨m', l', hm', hsettle⟩ := hstep m l hm
  exact ⟨m', l', hm', fun t ht => ⟨(hst' t (hsub t ht)).1,
    fun here => ((hst' t (hsub t ht)).2 here).trans (hsettle t ht here)⟩⟩

theorem Completes.of_subset (h : Completes st ts n M st') (hsub : ∀ t ∈ ts', t ∈ ts) :
    Completes st ts' n M st' :=
  h.trans hsub fun m l hm => ⟨m, l, hm, fun _ _ _ => rfl⟩

/-- A phrase is as good in one state as in another, if it is renamed alike. -/
theorem Completes.climb (h : Completes st ts n M st') (fuel : Nat)
    (hclimb : ∀ t ∈ ts', t ∈ ts ∧
      Grammar.climb t st.state fuel n = Grammar.climb t st.state fuel k) :
    Completes st ts' k M st' :=
  h.trans (fun t ht => (hclimb t ht).1) fun m l hm =>
    ⟨m, l, hm, fun t ht here => by
      rw [settle_climb fuel, (hclimb t ht).2, ← settle_climb]⟩

theorem completes_self (hactionable : ∀ t ∈ ts, actionable k t = true) :
    Completes st ts k (· = m) (⟨k, m, l⟩ :: st) :=
  ⟨m, l, rfl, fun t ht => ⟨hactionable t ht, fun _ => rfl⟩⟩

/-- The phrase is the last symbol of a rule that joins it with those below. -/
theorem Completes.join (others : Stack) {start : Loc} (h : Completes (others ++ below) ts k M st')
    (hr : ∀ t ∈ ts, calledFor? k t = some r) (hsize : others.length + 1 = r.size)
    (hstart : others.reverse.head?.map (·.start) = some start)
    (hbuild : ∀ m, M m → ∃ m',
      r.build start (others.reverse.map (·.meaning) ++ [m]) = some m' ∧ M' m')
    (hgoto : goto? below.state r.left = some n) (hn : n ≠ accepting) :
    Completes below ts n M' st' := by
  obtain ⟨first, more, hothers⟩ : ∃ first more, others.reverse = first :: more := by
    cases hrev : others.reverse with
    | nil => simp [hrev] at hstart
    | cons first more => exact ⟨first, more, rfl⟩
  have hlength : others.length = more.length + 1 := by
    rw [← List.length_reverse, hothers, List.length_cons]
  refine h.trans (fun _ => id) fun m l hm => ?_
  obtain ⟨m', hm', hM'⟩ := hbuild m hm
  refine ⟨m', start, hM', fun t ht here => ?_⟩
  refine settle_join (⟨k, m, l⟩ :: others) below (by rw [List.length_cons, hsize]) (by omega)
    (hr t ht) ?_ ?_ hgoto hn
  · rw [List.reverse_cons, hothers, ← hstart, hothers]
    rfl
  · rw [List.reverse_cons, List.map_append]
    exact hm'

/-- The word closes the phrase: it is the last symbol of a rule that joins it with those below. -/
theorem completes_closed (others : Stack) {w : Token} {start : Loc} {m' : Meaning}
    (hr : ∀ t ∈ ts, calledFor? k t = some r) (hsize : others.length + 1 = r.size)
    (hstart : others.reverse.head?.map (·.start) = some start)
    (hbuild : r.build start (others.reverse.map (·.meaning) ++ [.token w]) = some m') (hm' : M' m')
    (hgoto : goto? below.state r.left = some n) (hn : n ≠ accepting) :
    Completes below ts n M' (⟨k, .token w, l⟩ :: (others ++ below)) := by
  refine (completes_self fun t ht => actionable_of_calledFor (hr t ht)).join others hr hsize hstart
    ?_ hgoto hn
  rintro _ rfl
  exact ⟨m', hbuild, hm'⟩

/-! ## Reading -/

/-- The text is read in front of the rest, wherever it stands. -/
def Consumes (st : Stack) (text rest : List Char) (P : Stack → Prop) : Prop :=
  ∀ here last, ∃ st' here' last', P st' ∧
    parseFrom ⟨st, here, last⟩ (text ++ rest) = parseFrom ⟨st', here', last'⟩ rest

variable {text rest : List Char} {P Q : Stack → Prop}

theorem Consumes.append {text' : List Char} (h : Consumes st text (text' ++ rest) P)
    (h' : ∀ st', P st' → Consumes st' text' rest Q) : Consumes st (text ++ text') rest Q := by
  intro here last
  obtain ⟨st₁, here₁, last₁, hP, hparse₁⟩ := h here last
  obtain ⟨st₂, here₂, last₂, hQ, hparse₂⟩ := h' st₁ hP here₁ last₁
  exact ⟨st₂, here₂, last₂, hQ, by rw [List.append_assoc, hparse₁, hparse₂]⟩

theorem Consumes.mono (h : Consumes st text rest P) (hPQ : ∀ st', P st' → Q st') :
    Consumes st text rest Q := by
  intro here last
  obtain ⟨st', here', last', hP, hparse⟩ := h here last
  exact ⟨st', here', last', hPQ st' hP, hparse⟩

theorem consumes_nil (h : P st) (rest : List Char) : Consumes st [] rest P :=
  fun here last => ⟨st, here, last, h, rfl⟩

/-- A character is read, and then the text after it. -/
theorem Consumes.cons {c : Char} {text' : List Char} (h : Consumes st [c] (text' ++ rest) P)
    (h' : ∀ st', P st' → Consumes st' text' rest Q) : Consumes st (c :: text') rest Q :=
  h.append h'

/-- The word has been shifted. -/
def Shifted (k : State) (text : List Char) (st st' : Stack) : Prop :=
  ∃ w l, w.text = String.ofList text ∧ st' = ⟨k, .token w, l⟩ :: st

/-- A word that is no keyword stays what it is. -/
theorem retype_eq (possible : Terminal → Bool) {s : String}
    (h : t = .name → s ≠ "function" ∧ s ≠ "return") : retype possible t s = t := by
  unfold retype
  split
  next h' => exact absurd h'.2.1 (h h'.1).1
  split
  next h' => exact absurd h'.2.1 (h h'.1).2
  next => rfl

/-- A word is shifted, with the place where it stands. -/
theorem parseFrom_word (hscan : Scans t text rest) (htext : text ≠ [])
    (hname : t = .name → String.ofList text ≠ "function" ∧ String.ofList text ≠ "return")
    (hactionable : actionable st.state t = true) (last : Loc)
    (hsettle : settle here t st = .shift k below) :
    parseFrom ⟨st, here, last⟩ (text ++ rest) =
      parseFrom ⟨⟨k, .token ⟨t, String.ofList text, here⟩, here⟩ :: below, here.after text, here⟩
        rest := by
  have hword : takeMatch ⟨st, here, last⟩ (.word t) text =
      .ok ⟨⟨k, .token ⟨t, String.ofList text, here⟩, here⟩ :: below, here.after text, here⟩ := by
    rw [takeMatch, retype_eq _ hname, takeWord, hsettle]
  have hempty : (text ++ rest).isEmpty = false := by simpa using fun h => absurd h htext
  have hlength : rest.length < (text ++ rest).length := by
    have := List.length_pos_iff.2 htext
    rw [List.length_append]
    omega
  rw [parseFrom, hempty, if_neg Bool.false_ne_true, hscan _ hactionable]
  dsimp only
  rw [hword]
  dsimp only
  rw [dif_pos hlength]

theorem consumes_word (hscan : Scans t text rest) (htext : text ≠ [])
    (hname : t = .name → String.ofList text ≠ "function" ∧ String.ofList text ≠ "return")
    (hactionable : actionable st.state t = true)
    (hsettle : ∀ here, settle here t st = .shift k below) :
    Consumes st text rest (Shifted k text below) := by
  intro here last
  exact ⟨_, _, _, ⟨⟨t, String.ofList text, here⟩, here, rfl, rfl⟩,
    parseFrom_word hscan htext hname hactionable last (hsettle here)⟩

/-- A word that is not a name. -/
theorem consumes_sign (hscan : Scans t text rest) (htext : text ≠ []) (hname : t ≠ .name)
    (hshift : (row st.state).shifts.lookup t = some k) :
    Consumes st text rest (Shifted k text st) :=
  consumes_word hscan htext (fun h => absurd h hname) (actionable_of_shift hshift)
    fun _ => settle_shift hshift

/-- A word after a phrase. -/
theorem Completes.consumes_sign (h : Completes st ts n M st') (ht : t ∈ ts)
    (hshift : (row n).shifts.lookup t = some k) (hscan : Scans t text rest) (htext : text ≠ [])
    (hname : t ≠ .name) :
    Consumes st' text rest fun st'' => ∃ m l, M m ∧ Shifted k text (⟨n, m, l⟩ :: st) st'' := by
  obtain ⟨m, l, hm, hst'⟩ := h
  obtain ⟨hactionable, hsettle⟩ := hst' t ht
  refine Consumes.mono ?_ fun st'' hst'' => ⟨m, l, hm, hst''⟩
  exact consumes_word hscan htext (fun h => absurd h hname) hactionable
    fun here => (hsettle here).trans (settle_shift hshift)

/-! ## Blanks -/

theorem after_append (l : Loc) (cs cs' : List Char) :
    l.after (cs ++ cs') = (l.after cs).after cs' := by
  induction cs generalizing l with
  | nil => rfl
  | cons c cs ih =>
    by_cases hc : c = '\n'
    · subst hc
      exact ih _
    · simp only [List.cons_append, Loc.after, ih]

theorem parseFrom_blanks (c : Cursor) {b : Char} (hb : isSeparator b = true) (cs : List Char) :
    parseFrom c (b :: cs) =
      parseFrom { c with here := c.here.after ((b :: cs).takeWhile isSeparator) }
        ((b :: cs).dropWhile isSeparator) := by
  have hlength : ((b :: cs).dropWhile isSeparator).length < (b :: cs).length := by
    rw [List.dropWhile_cons_of_pos hb, List.length_cons]
    exact Nat.lt_succ_of_le (List.length_dropWhile_le _ _)
  rw [parseFrom, List.isEmpty_cons, if_neg Bool.false_ne_true, scan_blanks _ hb]
  dsimp only [takeMatch]
  rw [dif_pos hlength]

theorem parseFrom_blank (st : Stack) (here last : Loc) (rest : List Char) :
    parseFrom ⟨st, here, last⟩ (' ' :: rest) = parseFrom ⟨st, here.after [' '], last⟩ rest := by
  have hblank : isSeparator ' ' = true := rfl
  rw [parseFrom_blanks _ hblank, List.takeWhile_cons_of_pos hblank,
    List.dropWhile_cons_of_pos hblank]
  cases rest with
  | nil => rfl
  | cons c cs =>
    by_cases hc : isSeparator c = true
    · rw [parseFrom_blanks _ hc, ← after_append]
      rfl
    · rw [List.takeWhile_cons_of_neg hc, List.dropWhile_cons_of_neg hc]

/-- A blank changes nothing but places. -/
theorem consumes_blank (st : Stack) (rest : List Char) : Consumes st [' '] rest (· = st) :=
  fun here last => ⟨st, here.after [' '], last, rfl, parseFrom_blank st here last rest⟩

end AchievementLang.Grammar

import AchievementLang.Proofs.Eval.Simulation

/-!
# Arguments and parameters

Which arguments of a call go to which parameters is decided by their positions and labels alone: the
first arguments without a label go to the parameters in order, those with a label to the parameters
of their names (`Function.given`), and parameters that are not given get their defaults
(`Function.missing`). An argument can be refused, or a parameter can lack a default
(`Function.Refuses`, `Function.Lacks`).

Arguments are bound one after the other, so `Function.place` says what becomes of an argument after
others, `Function.evaluated` what is evaluated on the way, and `Function.progress` what has been
bound after some of them. An argument is refused on the way if and only if one does not fit
(`Function.admits_nil_iff`).
-/

namespace AchievementLang

open Eval

/-! ## What is written -/

namespace Expr

/-- The parameter that an argument names. -/
def label? : Expr → Option String
  | .assign x _ _ => some x
  | _ => none

/-- The labels among arguments. -/
def labels (args : List Expr) : List String := args.filterMap label?

/-- The arguments without a label. -/
def unlabelled (args : List Expr) : List Expr := args.filter fun a => a.label?.isNone

/-- What stands behind the labels. -/
def labelled (args : List Expr) : List Expr :=
  (args.filter fun a => a.label?.isSome).map argument

end Expr

/-- An argument, to be evaluated in the scope. -/
def Engine.suspended (m : Engine) (scope : Scope) (a : Expr) : Argument :=
  { label := a.label?, source := a.argument, loc := a.loc, reduce := m.reduce scope a.argument }

theorem Engine.arguments_eq_map (m : Engine) (scope : Scope) (args : List Expr) :
    m.arguments scope args = args.map (m.suspended scope) := by
  induction args with
  | nil => rfl
  | cons a rest ih =>
    cases a <;> simp only [arguments, ih, List.map_cons] <;> rfl

namespace Function

open AchievementLang.Expr

variable (f : Function)

/-- The parameters that arguments give: the first ones by position, and others by name. -/
def given (args : List Expr) : List String :=
  f.fixed.take (unlabelled args).length ++ labels args

/-- The parameters that arguments do not give. -/
def missing (args : List Expr) : List String := f.fixed.filter fun x => x ∉ f.given args

/-- An argument does not fit the parameters. -/
inductive Refuses (args : List Expr) : Prop
  | unknown {x : String} {e : Expr} {l : Option Loc} (h : .assign x e l ∈ args) (hx : x ∉ f.fixed)
  | twice {before after : List Expr} {x : String} {e : Expr} {l : Option Loc}
    (h : args = before ++ .assign x e l :: after) (hx : x ∈ f.given before)
  | afterLabel {before after : List Expr} {a : Expr} (h : args = before ++ a :: after)
    (ha : a.label? = none) (hbefore : labels before ≠ [])
  | tooMany (hvariadic : f.isVariadic = false) (h : f.fixed.length < (unlabelled args).length)

/-- A parameter that is not given has no default. -/
def Lacks (args : List Expr) : Prop := ∃ x ∈ f.missing args, f.defaults.get? x = none

/-! ## What becomes of an argument -/

/-- What becomes of an argument. -/
inductive Placement
  | parameter (x : String)
  | surplus
  | refused (cause : Cause)

/-- Why the argument is refused, if it is. -/
def Placement.cause? : Placement → Option Cause
  | refused cause => some cause
  | _ => none

/-- What becomes of an argument after others. -/
def place (before : List Expr) (a : Expr) : Placement :=
  match a.label? with
  | some x =>
    if x ∉ f.fixed then .refused (.noSuchParameter f.name x)
    else if x ∈ f.given before then .refused (.givenTwice x)
    else .parameter x
  | none =>
    if labels before ≠ [] then .refused .positionalAfterNamed
    else
      match f.fixed[(unlabelled before).length]? with
      | some x => .parameter x
      | none => if f.isVariadic then .surplus else .refused (.tooManyArguments f.name)

/-- The expressions that are evaluated for parameters, of the arguments after others: what is
written up to the first argument that is refused, without surplus arguments. -/
def evaluatedAfter (before : List Expr) : List Expr → List Expr
  | [] => []
  | a :: rest =>
    match f.place before a with
    | .parameter _ => a.argument :: evaluatedAfter (before ++ [a]) rest
    | .surplus => evaluatedAfter (before ++ [a]) rest
    | .refused _ => []

/-- The expressions that are evaluated for parameters. -/
def evaluated (args : List Expr) : List Expr := f.evaluatedAfter [] args

/-- The defaults that are evaluated: those of missing parameters, up to the first that has none. -/
def defaulted : List String → List (String × Expr)
  | [] => []
  | x :: rest =>
    match f.defaults.get? x with
    | some e => (x, e) :: defaulted rest
    | none => []

/-- None of the arguments after others is refused. -/
def Admits (before : List Expr) : List Expr → Prop
  | [] => True
  | a :: rest => (f.place before a).cause? = none ∧ Admits (before ++ [a]) rest

variable {f} {before args rest : List Expr} {a : Expr}

theorem admits_iff : f.Admits before rest ↔ ∀ middle a after, rest = middle ++ a :: after →
    (f.place (before ++ middle) a).cause? = none := by
  induction rest generalizing before with
  | nil => simp [Admits]
  | cons b rest ih =>
    rw [Admits, ih]
    constructor
    · rintro ⟨hb, hrest⟩ (_ | ⟨c, middle⟩) a after h
      · obtain ⟨rfl, -⟩ := List.cons.inj h
        simpa using hb
      · obtain ⟨rfl, rfl⟩ := List.cons.inj h
        simpa using hrest middle a after rfl
    · refine fun h => ⟨?_, fun middle a after hrest => ?_⟩
      · simpa using h [] b rest rfl
      · simpa using h (b :: middle) a after (by rw [hrest, List.cons_append])

theorem unlabelled_append (as bs : List Expr) :
    unlabelled (as ++ bs) = unlabelled as ++ unlabelled bs := List.filter_append ..

theorem labels_append (as bs : List Expr) : labels (as ++ bs) = labels as ++ labels bs :=
  List.filterMap_append ..

theorem unlabelled_cons_of_none (h : a.label? = none) (rest : List Expr) :
    unlabelled (a :: rest) = a :: unlabelled rest := List.filter_cons_of_pos (by simp [h])

theorem unlabelled_cons_of_some {x : String} (h : a.label? = some x) (rest : List Expr) :
    unlabelled (a :: rest) = unlabelled rest := List.filter_cons_of_neg (by simp [h])

/-- Every argument without a label has a number of such arguments before it. -/
theorem exists_unlabelled {n : Nat} (h : n < (unlabelled args).length) :
    ∃ before a after, args = before ++ a :: after ∧ a.label? = none ∧
      (unlabelled before).length = n := by
  induction args generalizing n with
  | nil => cases h
  | cons b rest ih =>
    cases hb : b.label? with
    | some x =>
      obtain ⟨before, a, after, rfl, ha, hn⟩ := ih (by rwa [unlabelled_cons_of_some hb] at h)
      exact ⟨b :: before, a, after, rfl, ha, by rwa [unlabelled_cons_of_some hb]⟩
    | none =>
      cases n with
      | zero => exact ⟨[], b, rest, rfl, hb, rfl⟩
      | succ n =>
        obtain ⟨before, a, after, rfl, ha, hn⟩ := ih (n := n) <| by
          rw [unlabelled_cons_of_none hb] at h
          exact Nat.lt_of_succ_lt_succ h
        exact ⟨b :: before, a, after, rfl, ha, by
          rw [unlabelled_cons_of_none hb, List.length_cons, hn]⟩

theorem exists_assign_of_label? {x : String} (h : a.label? = some x) :
    ∃ e l, a = .assign x e l := by
  cases a with
  | assign y e l =>
    cases h
    exact ⟨e, l, rfl⟩
  | _ => cases h

/-- Arguments are admitted one after the other if none of them is refused. -/
theorem admits_nil_iff : f.Admits [] args ↔ ¬f.Refuses args := by
  rw [admits_iff]
  simp only [List.nil_append]
  constructor
  · rintro h (⟨hmem, hx⟩ | ⟨hargs, hx⟩ | ⟨hargs, ha, hbefore⟩ | ⟨hvariadic, hlength⟩)
    · obtain ⟨before, after, hargs⟩ := List.append_of_mem hmem
      simpa [place, label?, hx, Placement.cause?] using h before _ after hargs
    · have hplace := h _ _ _ hargs
      simp only [place, label?, if_pos hx] at hplace
      split at hplace <;> cases hplace
    · simpa [place, ha, hbefore, Placement.cause?] using h _ _ _ hargs
    · obtain ⟨before, a, after, hargs, ha, hn⟩ := exists_unlabelled hlength
      have hplace := h _ _ _ hargs
      simp only [place, ha, hn, List.getElem?_length, hvariadic] at hplace
      split at hplace <;> cases hplace
  · intro h before a after hargs
    unfold place
    split
    next x hlabel =>
      obtain ⟨e, l, rfl⟩ := exists_assign_of_label? hlabel
      have hmem : .assign x e l ∈ args := by simp [hargs]
      rw [if_neg fun hx => h (.unknown hmem hx), if_neg fun hx => h (.twice hargs hx)]
      rfl
    next hlabel =>
      rw [if_neg fun hbefore => h (.afterLabel hargs hlabel hbefore)]
      split
      · rfl
      next hnone =>
        have hfull := List.getElem?_eq_none_iff.1 hnone
        have hvariadic : f.isVariadic = true := by
          by_contra hvariadic
          refine h (.tooMany (by simpa using hvariadic) ?_)
          rw [hargs, unlabelled_append, List.length_append, unlabelled_cons_of_none hlabel,
            List.length_cons]
          omega
        rw [if_pos hvariadic]
        rfl

/-! ## What is given -/

/-- An argument goes to the parameter of its label, or to the next one. -/
theorem place_eq_parameter {x : String} (h : f.place before a = .parameter x) :
    (a.label? = some x ∧ x ∈ f.fixed ∧ x ∉ f.given before) ∨
      a.label? = none ∧ labels before = [] ∧ f.fixed[(unlabelled before).length]? = some x := by
  unfold place at h
  split at h
  next hlabel =>
    split at h
    · cases h
    next hfixed =>
      split at h
      · cases h
      next hgiven =>
        cases h
        exact .inl ⟨hlabel, not_not.1 hfixed, hgiven⟩
  next hlabel =>
    split at h
    · cases h
    next hlabels =>
      split at h
      next hy =>
        cases h
        exact .inr ⟨hlabel, not_not.1 hlabels, hy⟩
      next => split at h <;> cases h

/-- An argument is surplus if it has no label, and there is no parameter left. -/
theorem place_eq_surplus (h : f.place before a = .surplus) :
    a.label? = none ∧ f.fixed.length ≤ (unlabelled before).length ∧ f.isVariadic = true := by
  unfold place at h
  split at h
  · split at h
    · cases h
    · split at h <;> cases h
  next hlabel =>
    split at h
    · cases h
    · split at h
      · cases h
      next hnone =>
        split at h
        next hvariadic => exact ⟨hlabel, List.getElem?_eq_none_iff.1 hnone, hvariadic⟩
        next => cases h

theorem labels_concat_of_none (h : a.label? = none) (before : List Expr) :
    labels (before ++ [a]) = labels before := by
  simp [labels, h]

theorem labels_concat_of_some {x : String} (h : a.label? = some x) (before : List Expr) :
    labels (before ++ [a]) = labels before ++ [x] := by
  simp [labels, h]

theorem unlabelled_concat_of_none (h : a.label? = none) (before : List Expr) :
    unlabelled (before ++ [a]) = unlabelled before ++ [a] := by
  simp [unlabelled, h]

theorem unlabelled_concat_of_some {x : String} (h : a.label? = some x) (before : List Expr) :
    unlabelled (before ++ [a]) = unlabelled before := by
  simp [unlabelled, h]

/-- An argument that goes to a parameter gives that one, which has not been given before. -/
theorem given_concat_of_parameter (hnodup : f.fixed.Nodup) {x : String}
    (h : f.place before a = .parameter x) :
    f.given (before ++ [a]) = f.given before ++ [x] ∧ x ∉ f.given before := by
  obtain ⟨hlabel, -, hgiven⟩ | ⟨hlabel, hlabels, hnext⟩ := place_eq_parameter h
  · refine ⟨?_, hgiven⟩
    rw [given, given, unlabelled_concat_of_some hlabel, labels_concat_of_some hlabel,
      List.append_assoc]
  · obtain ⟨hlt, rfl⟩ := List.getElem?_eq_some_iff.1 hnext
    rw [given, given, unlabelled_concat_of_none hlabel, labels_concat_of_none hlabel, hlabels,
      List.append_nil, List.append_nil, List.length_append, List.length_singleton]
    refine ⟨List.take_succ_eq_append_getElem hlt, fun hmem => ?_⟩
    obtain ⟨i, hi, heq⟩ := List.getElem_of_mem hmem
    rw [List.getElem_take] at heq
    rw [List.length_take] at hi
    exact absurd ((List.Nodup.getElem_inj_iff hnodup).1 heq) (by omega)

/-- A surplus argument gives no parameter. -/
theorem given_concat_of_surplus (h : f.place before a = .surplus) :
    f.given (before ++ [a]) = f.given before := by
  obtain ⟨hlabel, hfull, -⟩ := place_eq_surplus h
  rw [given, given, unlabelled_concat_of_none hlabel, labels_concat_of_none hlabel,
    List.take_of_length_le hfull, List.take_of_length_le]
  rw [List.length_append]
  omega

theorem kind_of_place {cause : Cause} (h : (f.place before a).cause? = some cause) :
    cause.kind = .badCall := by
  unfold place at h
  split at h
  · split at h
    · cases h
      rfl
    · split at h <;> cases h
      rfl
  · split at h
    · cases h
      rfl
    · split at h
      · cases h
      · split at h <;> cases h
        rfl

/-! ## Calls without refusals -/

theorem given_subset (h : ¬f.Refuses args) : f.given args ⊆ f.fixed := by
  intro x hx
  obtain hx | hx := List.mem_append.1 hx
  · exact List.mem_of_mem_take hx
  · by_contra hfixed
    obtain ⟨a, ha, hlabel⟩ := List.mem_filterMap.1 hx
    obtain ⟨e, l, rfl⟩ := exists_assign_of_label? hlabel
    exact h (.unknown ha hfixed)

/-- The parameters are those that are given and those that are missing. -/
theorem given_append_missing_perm (hnodup : f.fixed.Nodup) (h : ¬f.Refuses args)
    (hgiven : (f.given args).Nodup) : (f.given args ++ f.missing args).Perm f.fixed := by
  have hmissing {x : String} : x ∈ f.missing args ↔ x ∈ f.fixed ∧ x ∉ f.given args := by
    simp [missing]
  refine (List.perm_ext_iff_of_nodup ?_ hnodup).2 fun x => ?_
  · refine List.nodup_append.2 ⟨hgiven, hnodup.filter _, fun x hx y hy hxy => ?_⟩
    exact (hmissing.1 hy).2 (hxy ▸ hx)
  · rw [List.mem_append, hmissing]
    have := @given_subset f args h x
    tauto

/-- After an argument with a label there are none without. -/
theorem Admits.unlabelled_eq_nil (h : f.Admits before rest) (hlabels : labels before ≠ []) :
    unlabelled rest = [] := by
  refine List.filter_eq_nil_iff.2 fun a ha hnone => ?_
  obtain ⟨middle, after, hrest⟩ := List.append_of_mem ha
  have hplace := admits_iff.1 h middle a after hrest
  have hlabels' : labels (before ++ middle) ≠ [] := by
    rw [labels_append]
    exact List.append_ne_nil_of_left_ne_nil hlabels _
  simp only [place, Option.isNone_iff_eq_none.1 hnone, hlabels', ne_eq, not_false_eq_true, if_true,
    Placement.cause?, reduceCtorEq] at hplace

theorem argument_of_label?_eq_none (h : a.label? = none) : a.argument = a := by
  cases a <;> first | rfl | cases h

/-- What arguments that are accepted stand for is evaluated, but for the surplus ones. -/
theorem Admits.evaluatedAfter_eq (h : f.Admits before rest) :
    f.evaluatedAfter before rest =
      (unlabelled rest).take (f.fixed.length - (unlabelled before).length) ++ labelled rest := by
  induction rest generalizing before with
  | nil => simp [evaluatedAfter, unlabelled, labelled]
  | cons a rest ih =>
    obtain ⟨ha, hrest⟩ := h
    have hih := ih hrest
    rw [evaluatedAfter]
    cases hplace : f.place before a with
    | parameter x =>
      obtain ⟨hlabel, -⟩ | ⟨hlabel, -, hnext⟩ := place_eq_parameter hplace
      · have hnone : unlabelled rest = [] :=
          hrest.unlabelled_eq_nil (by simp [labels_concat_of_some hlabel])
        simp [hih, unlabelled_cons_of_some hlabel, hnone, labelled, hlabel]
      · have hlt : (unlabelled before).length < f.fixed.length :=
          (List.getElem?_eq_some_iff.1 hnext).1
        obtain ⟨n, hn⟩ : ∃ n, f.fixed.length - (unlabelled before).length = n + 1 :=
          ⟨f.fixed.length - (unlabelled before).length - 1, by omega⟩
        have hn' : f.fixed.length - (unlabelled (before ++ [a])).length = n := by
          rw [unlabelled_concat_of_none hlabel, List.length_append, List.length_singleton]
          omega
        simp [hih, hn, hn', unlabelled_cons_of_none hlabel, argument_of_label?_eq_none hlabel,
          labelled, hlabel]
    | surplus =>
      obtain ⟨hlabel, hfull, -⟩ := place_eq_surplus hplace
      have hzero : f.fixed.length - (unlabelled before).length = 0 := by omega
      have hzero' : f.fixed.length - (unlabelled (before ++ [a])).length = 0 := by
        rw [unlabelled_concat_of_none hlabel, List.length_append]
        omega
      simp [hih, hzero, hzero', labelled, hlabel]
    | refused cause =>
      rw [hplace] at ha
      cases ha

theorem map_defaulted {xs : List String} (h : ∀ x ∈ xs, f.defaults.get? x ≠ none) :
    (f.defaulted xs).map Prod.fst = xs := by
  induction xs with
  | nil => rfl
  | cons x rest ih =>
    obtain ⟨e, he⟩ := Option.ne_none_iff_exists'.1 (h x List.mem_cons_self)
    rw [defaulted, he]
    simp [ih fun y hy => h y (List.mem_cons_of_mem x hy)]

/-! ## What has been bound -/

variable {m : Engine} {caller : Scope} {vs : List Expr}

variable (f m caller) in
/-- What has been bound after arguments, of which those for parameters have the given values. -/
def progress (before vs : List Expr) : Activation.Progress where
  scope := { caller.callee with frame := (f.given before).zip vs }
  next := f.fixed.drop (unlabelled before).length
  labelled := !(labels before).isEmpty
  surplus := ((unlabelled before).drop f.fixed.length).map (m.suspended caller)

theorem progress_nil :
    f.progress m caller [] [] = { scope := caller.callee, next := f.fixed } := by
  simp [progress, given, unlabelled, labels, Scope.callee]

variable (f) in
/-- The arguments give distinct parameters, each of which has a value. -/
structure Bound (before vs : List Expr) : Prop where
  nodup : (f.given before).Nodup
  length : vs.length = (f.given before).length

theorem bound_nil : f.Bound [] [] := ⟨by simp [given, unlabelled, labels],
  by simp [given, unlabelled, labels]⟩

theorem Bound.parameter (h : f.Bound before vs) (hnodup : f.fixed.Nodup) {x : String}
    (hplace : f.place before a = .parameter x) (v : Expr) :
    f.Bound (before ++ [a]) (vs ++ [v]) := by
  obtain ⟨hgiven, hx⟩ := given_concat_of_parameter hnodup hplace
  refine ⟨?_, by simp [hgiven, h.length]⟩
  rw [hgiven]
  exact List.nodup_append.2 ⟨h.nodup, List.nodup_singleton x, fun y hy z hz => by
    rw [List.mem_singleton.1 hz]
    exact fun hyx => hx (hyx ▸ hy)⟩

theorem Bound.surplus (h : f.Bound before vs) (hplace : f.place before a = .surplus) :
    f.Bound (before ++ [a]) vs := by
  have hgiven := given_concat_of_surplus hplace
  exact ⟨hgiven ▸ h.nodup, hgiven ▸ h.length⟩

theorem Bound.keys (h : f.Bound before vs) (m : Engine) (caller : Scope) :
    (f.progress m caller before vs).scope.frame.map Prod.fst = f.given before :=
  List.map_fst_zip h.length.ge

theorem Bound.define (h : f.Bound before vs) (hnodup : f.fixed.Nodup) {x : String}
    (hplace : f.place before a = .parameter x) (v : Expr) :
    (f.progress m caller before vs).scope.define x v =
      (f.progress m caller (before ++ [a]) (vs ++ [v])).scope := by
  obtain ⟨hgiven, hx⟩ := given_concat_of_parameter hnodup hplace
  rw [← h.keys m caller] at hx
  rw [Scope.define, Bindings.set_of_not_mem hx, progress, progress, hgiven,
    List.zip_append h.length.symm]
  rfl

end Function

theorem Bindings.has_iff {α : Type} (b : Bindings α) (x : String) :
    b.has x = true ↔ x ∈ b.map Prod.fst := by
  induction b with
  | nil => simp [Bindings.has]
  | cons p rest ih =>
    unfold Bindings.has at ih ⊢
    rw [Bindings.get?]
    by_cases hp : p.1 = x
    · simp [hp]
    · simpa [hp, Ne.symm hp] using ih

open AchievementLang.Expr in
/-- An argument for a parameter, bound after others. -/
theorem Function.Bound.progress_parameter {f : Function} {before vs : List Expr} {a : Expr}
    {m : Engine} {caller : Scope} (h : f.Bound before vs) (hnodup : f.fixed.Nodup) {x : String}
    (hplace : f.place before a = .parameter x) (v : Expr) :
    f.progress m caller (before ++ [a]) (vs ++ [v]) =
      { f.progress m caller before vs with
        scope := (f.progress m caller before vs).scope.define x v
        next := f.fixed.drop (unlabelled (before ++ [a])).length
        labelled := !(labels (before ++ [a])).isEmpty } := by
  rw [h.define hnodup hplace]
  obtain ⟨hlabel, -⟩ | ⟨hlabel, -, hnext⟩ := Function.place_eq_parameter hplace
  · simp only [Function.progress, Function.unlabelled_concat_of_some hlabel]
  · have hlt : (unlabelled before).length < f.fixed.length := (List.getElem?_eq_some_iff.1 hnext).1
    have hnone : (unlabelled before).drop f.fixed.length = [] := List.drop_of_length_le hlt.le
    have hnone' : (unlabelled (before ++ [a])).drop f.fixed.length = [] := by
      rw [Function.unlabelled_concat_of_none hlabel]
      exact List.drop_of_length_le (by rw [List.length_append]; exact hlt)
    simp only [Function.progress, hnone, hnone']

end AchievementLang

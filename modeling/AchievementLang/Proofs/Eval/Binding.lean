import AchievementLang.Proofs.Eval.Parameters

/-!
# Binding parameters

A call fails in the way it is written if and only if an argument does not fit the parameters, or a
parameter that is not given has no default; else it binds each parameter once, and nothing besides
them but the surplus arguments (`Scope.bindCall_iff`).

One argument leads from what has been bound before to what is bound then
(`Activation.run_bindArgument`), and so do all of them (`Activation.run_bindArguments`). Defaults
are evaluated where the ones before are bound (`Fills`, `Activation.run_bindDefaults`).
-/

namespace AchievementLang

open Eval

theorem Eval.run_pure {α : Type} (a : α) (s : State) : (pure a : Eval α).run s = (.ok a, s) := rfl

theorem Eval.run_mapM_cons_eq_ok {α β : Type} {f : α → Eval β} {a : α} {as : List α} {bs : List β}
    {s s' : State} (h : ((a :: as).mapM f).run s = (.ok bs, s')) :
    ∃ b s₁ bs₁, (f a).run s = (.ok b, s₁) ∧ (as.mapM f).run s₁ = (.ok bs₁, s') ∧
      bs = b :: bs₁ := by
  rw [List.mapM_cons, run_bind] at h
  generalize ha : (f a).run s = r at h ⊢
  obtain ⟨_ | b, s₁⟩ := r
  · cases h
  · dsimp only at h
    rw [run_bind] at h
    generalize has : (as.mapM f).run s₁ = r at h
    obtain ⟨_ | bs₁, s₂⟩ := r
    · cases h
    · cases h
      exact ⟨b, s₁, bs₁, rfl, has, rfl⟩

namespace Activation

open AchievementLang.Expr

variable {f : Function} {m : Engine} {caller : Scope} {before rest vs : List Expr}

/-- What an argument comes to that is placed as said, bound after others. -/
def placing (f : Function) (m : Engine) (caller : Scope) (before vs : List Expr) (a : Expr)
    (s : State) : Function.Placement → Except Failure Progress × State
  | .parameter _ =>
    match (m.reduce caller a.argument).run s with
    | (.ok v, s') => (.ok (f.progress m caller (before ++ [a]) (vs ++ [v])), s')
    | (.error e, s') => (.error e, s')
  | .surplus => (.ok (f.progress m caller (before ++ [a]) vs), s)
  | .refused cause => (.error (.at? cause a.loc), s)

theorem run_bindNamed (hnodup : f.fixed.Nodup) (h : f.Bound before vs) {a : Expr} {x : String}
    (hlabel : a.label? = some x) (s : State) :
    (bindNamed f (f.progress m caller before vs) x (m.suspended caller a)).run s =
      placing f m caller before vs a s (f.place before a) := by
  have hhas : (f.progress m caller before vs).scope.frame.has x = true ↔ x ∈ f.given before := by
    rw [Bindings.has_iff, h.keys]
  simp only [bindNamed, Bool.not_eq_true', List.contains_eq_mem, decide_eq_false_iff_not, hhas]
  by_cases hfixed : x ∈ f.fixed
  · by_cases hgiven : x ∈ f.given before
    · simp only [Function.place, hlabel, hfixed, hgiven, not_true_eq_false, if_false, if_true]
      rfl
    · have hplace : f.place before a = .parameter x := by
        simp only [Function.place, hlabel, hfixed, hgiven, not_true_eq_false, if_false]
      have hlabelled : (!(labels (before ++ [a])).isEmpty) = true := by
        simp [Function.labels_concat_of_some hlabel]
      rw [if_neg (not_not.2 hfixed), if_neg hgiven, hplace, run_bind, Engine.suspended, placing]
      obtain ⟨_ | v, s'⟩ := (m.reduce caller a.argument).run s
      · rfl
      · dsimp only
        rw [h.progress_parameter hnodup hplace, Function.unlabelled_concat_of_some hlabel,
          hlabelled]
        rfl
  · simp only [Function.place, hlabel, hfixed, not_false_eq_true, if_true]
    rfl

theorem run_bindNext (hnodup : f.fixed.Nodup) (h : f.Bound before vs) {a : Expr}
    (hlabel : a.label? = none) (s : State) :
    (bindNext f (f.progress m caller before vs) (m.suspended caller a)).run s =
      placing f m caller before vs a s (f.place before a) := by
  by_cases hlabels : labels before = []
  · have hlabelled : (f.progress m caller before vs).labelled = false := by
      simp [Function.progress, hlabels]
    rw [bindNext, hlabelled, if_neg Bool.false_ne_true]
    cases hnext : f.fixed[(unlabelled before).length]? with
    | some x =>
      have hplace : f.place before a = .parameter x := by
        simp only [Function.place, hlabel, hlabels, hnext, ne_eq, not_true_eq_false, if_false]
      obtain ⟨hlt, rfl⟩ := List.getElem?_eq_some_iff.1 hnext
      have hdrop : (f.progress m caller before vs).next = _ := List.drop_eq_getElem_cons hlt
      rw [hdrop, hplace, run_bind, Engine.suspended, placing]
      obtain ⟨_ | v, s'⟩ := (m.reduce caller a.argument).run s
      · rfl
      · dsimp only
        rw [h.progress_parameter hnodup hplace, Function.unlabelled_concat_of_none hlabel,
          Function.labels_concat_of_none hlabel, List.length_append, hlabels]
        rfl
    | none =>
      have hfull := List.getElem?_eq_none_iff.1 hnext
      have hnone : (f.progress m caller before vs).next = [] := List.drop_of_length_le hfull
      rw [hnone]
      by_cases hvariadic : f.isVariadic = true
      · have hplace : f.place before a = .surplus := by
          simp only [Function.place, hlabel, hlabels, hnext, hvariadic, ne_eq, not_true_eq_false,
            if_false, if_true]
        have hnext' : f.fixed.drop ((unlabelled before).length + 1) = [] :=
          List.drop_of_length_le (by omega)
        rw [hplace, placing]
        simp only [hvariadic, if_true, Function.progress, Function.given_concat_of_surplus hplace,
          Function.unlabelled_concat_of_none hlabel, Function.labels_concat_of_none hlabel,
          List.drop_append_of_le_length hfull, List.map_append, List.length_append,
          List.length_singleton, hnext', hlabels]
        rfl
      · simp only [Function.place, hlabel, hlabels, hnext, hvariadic, ne_eq, not_true_eq_false,
          if_false, Bool.false_eq_true]
        rfl
  · have hlabelled : (f.progress m caller before vs).labelled = true := by
      simp [Function.progress, hlabels]
    rw [bindNext, hlabelled, if_pos rfl]
    simp only [Function.place, hlabel, hlabels, ne_eq, not_false_eq_true, if_true]
    rfl

/-- **Binding one argument** after others. -/
theorem run_bindArgument (hnodup : f.fixed.Nodup) (h : f.Bound before vs) (a : Expr) (s : State) :
    (bindArgument f (f.progress m caller before vs) (m.suspended caller a)).run s =
      placing f m caller before vs a s (f.place before a) := by
  unfold bindArgument
  split
  next x hlabel => exact run_bindNamed hnodup h hlabel s
  next hlabel => exact run_bindNext hnodup h hlabel s

/-- **Binding arguments** after others, of which those that go to parameters have values. They end
with what has been bound after all of them, or with the error of the first that is refused. -/
theorem run_bindArguments (hnodup : f.fixed.Nodup) (h : f.Bound before vs) {vs' : List Expr}
    {s s' : State}
    (hvs : ((f.evaluatedAfter before rest).mapM (m.reduce caller)).run s = (.ok vs', s')) :
    (f.Admits before rest →
        f.Bound (before ++ rest) (vs ++ vs') ∧
        ((rest.map (m.suspended caller)).foldlM (bindArgument f)
            (f.progress m caller before vs)).run s =
          (.ok (f.progress m caller (before ++ rest) (vs ++ vs')), s')) ∧
      (¬f.Admits before rest → ∃ cause loc, cause.kind = .badCall ∧
        ((rest.map (m.suspended caller)).foldlM (bindArgument f)
            (f.progress m caller before vs)).run s = (.error (.at? cause loc), s')) := by
  induction rest generalizing before vs vs' s with
  | nil =>
    cases hvs
    refine ⟨fun _ => ?_, fun hnot => absurd trivial hnot⟩
    simpa using ⟨h, rfl⟩
  | cons a rest ih =>
    rw [List.map_cons, List.foldlM_cons, run_bind, run_bindArgument hnodup h]
    rw [Function.evaluatedAfter] at hvs
    rw [Function.Admits]
    cases hplace : f.place before a with
    | parameter x =>
      rw [hplace] at hvs
      obtain ⟨v, s₁, vs₁, ha, hrest, rfl⟩ := run_mapM_cons_eq_ok hvs
      simpa only [placing, ha, Function.Placement.cause?, true_and, List.append_assoc,
        List.singleton_append] using ih (h.parameter hnodup hplace v) hrest
    | surplus =>
      rw [hplace] at hvs
      simpa only [placing, Function.Placement.cause?, true_and, List.append_assoc,
        List.singleton_append] using ih (h.surplus hplace) hvs
    | refused cause =>
      rw [hplace] at hvs
      cases hvs
      refine ⟨fun hand => ?_, fun _ => ⟨cause, a.loc, ?_, rfl⟩⟩
      · cases hand.1
      · exact Function.kind_of_place (by rw [hplace]; rfl)

end Activation

/-! ## Defaults -/

/-- Variables that get the values of expressions, each evaluated in the scope with the ones before
set. -/
inductive Fills (reduce : Scope → Expr → Eval Expr) :
    Scope → List (String × Expr) → State → List Expr → State → Prop
  | nil (scope : Scope) (s : State) : Fills reduce scope [] s [] s
  | cons {scope : Scope} {x : String} {e v : Expr} {rest : List (String × Expr)}
    {vs : List Expr} {s s' s'' : State} (hv : (reduce scope e).run s = (.ok v, s'))
    (hrest : Fills reduce (scope.define x v) rest s' vs s'') :
    Fills reduce scope ((x, e) :: rest) s (v :: vs) s''

namespace Activation

variable {f : Function} {reduce : Scope → Expr → Eval Expr}

/-- The parameters that are not bound in a scope. -/
def unbound (scope : Scope) (xs : List String) : List String :=
  xs.filter fun x => !scope.frame.has x

theorem unbound_define {scope : Scope} {x : String} {xs : List String} (hx : x ∉ xs) (v : Expr) :
    unbound (scope.define x v) xs = unbound scope xs := by
  refine List.filter_congr fun y hy => ?_
  have hne : x ≠ y := fun hxy => hx (hxy ▸ hy)
  rw [Scope.define, Bindings.has, Bindings.has, Bindings.get?_set, if_neg hne]

theorem unbound_progress {args vs : List Expr} (h : f.Bound args vs) (m : Engine) (caller : Scope) :
    unbound (f.progress m caller args vs).scope f.fixed = f.missing args := by
  refine List.filter_congr fun x _ => ?_
  rw [← h.keys m caller, ← Bool.decide_congr (Bindings.has_iff _ x).not]
  simp

/-- **Binding defaults** that are evaluated one after the other: they are set in the order of the
parameters, up to the first that has none. -/
theorem run_bindDefaults {xs : List String} (hxs : xs.Nodup) {scope : Scope} {ws : List Expr}
    {s s' : State} (hfills : Fills reduce scope (f.defaulted (unbound scope xs)) s ws s')
    (loc : Option Loc) :
    ((∀ x ∈ unbound scope xs, f.defaults.get? x ≠ none) →
        (xs.foldlM (bindDefault f reduce loc) scope).run s =
          (.ok { scope with frame := scope.frame ++ (unbound scope xs).zip ws }, s')) ∧
      ((∃ x ∈ unbound scope xs, f.defaults.get? x = none) → ∃ cause, cause.kind = .badCall ∧
        (xs.foldlM (bindDefault f reduce loc) scope).run s = (.error (.at? cause loc), s')) := by
  induction xs generalizing scope ws s with
  | nil =>
    cases hfills
    refine ⟨fun _ => ?_, fun ⟨x, hx, _⟩ => absurd hx List.not_mem_nil⟩
    simp [unbound]
    rfl
  | cons x rest ih =>
    obtain ⟨hx, hrest⟩ := List.nodup_cons.1 hxs
    simp only [List.foldlM_cons, run_bind, bindDefault]
    cases hhas : scope.frame.has x with
    | true =>
      have hunbound : unbound scope (x :: rest) = unbound scope rest :=
        List.filter_cons_of_neg (by simp [hhas])
      rw [hunbound] at hfills ⊢
      exact ih hrest hfills
    | false =>
      have hunbound : unbound scope (x :: rest) = x :: unbound scope rest :=
        List.filter_cons_of_pos (by simp [hhas])
      have hkey : x ∉ scope.frame.map Prod.fst := by
        rw [← Bindings.has_iff, hhas]
        exact Bool.false_ne_true
      rw [hunbound] at hfills ⊢
      cases hdefault : f.defaults.get? x with
      | none =>
        simp only [Function.defaulted, hdefault] at hfills
        cases hfills
        exact ⟨fun h => absurd hdefault (h x List.mem_cons_self), fun _ => ⟨_, rfl, rfl⟩⟩
      | some e =>
        simp only [Function.defaulted, hdefault] at hfills
        obtain _ | ⟨hv, hfills⟩ := hfills
        rw [← unbound_define hx] at hfills
        have hih := ih hrest hfills
        rw [unbound_define hx] at hih
        simpa only [Bool.false_eq_true, if_false, run_bind, hv, run_pure, List.forall_mem_cons,
          hdefault, List.exists_mem_cons_iff, Scope.define, Bindings.set_of_not_mem hkey,
          List.zip_cons_cons, List.append_assoc, List.singleton_append, ne_eq, reduceCtorEq,
          not_false_eq_true, true_and, false_or] using hih

theorem bindSurplus_eq (f : Function) (loc : Option Loc) (surplus : List Argument) {scope : Scope}
    (h : surplusVariable ∉ scope.frame.map Prod.fst) :
    bindSurplus f loc surplus scope =
      { scope with
        frame := scope.frame ++
          if f.isVariadic then [(surplusVariable, .array (surplus.map (·.source)) loc)]
          else [] } := by
  unfold bindSurplus
  split
  · rw [Scope.define, Bindings.set_of_not_mem h]
  · rw [List.append_nil]

end Activation

theorem Engine.map_source_suspended (m : Engine) (scope : Scope) (args : List Expr) (n : Nat) :
    (((Expr.unlabelled args).drop n).map (m.suspended scope)).map (·.source) =
      (Expr.unlabelled args).drop n := by
  rw [List.map_map]
  refine (List.map_congr_left fun a ha => ?_).trans (List.map_id _)
  have hlabel := (List.mem_filter.1 (List.mem_of_mem_drop ha)).2
  exact Function.argument_of_label?_eq_none (Option.isNone_iff_eq_none.1 hlabel)

/-- What is evaluated in scopes of one depth is evaluated by one engine. -/
theorem Fills.within {limit : Int} {scope : Scope} {xs : List (String × Expr)} {s s' : State}
    {vs : List Expr} (h : Fills (Scope.reduce limit) scope xs s vs s') (outer : Scope)
    (hdepth : scope.depth = outer.depth) :
    Fills (Engine.within limit outer).reduce scope xs s vs s' := by
  induction h with
  | nil scope s => exact .nil scope s
  | cons hv _ ih =>
    refine .cons ?_ (ih hdepth)
    rwa [Scope.reduce, Engine.within, hdepth] at hv

theorem Fills.length_eq {reduce : Scope → Expr → Eval Expr} {scope : Scope}
    {xs : List (String × Expr)} {s s' : State} {vs : List Expr}
    (h : Fills reduce scope xs s vs s') : vs.length = xs.length := by
  induction h with
  | nil => rfl
  | cons _ _ ih => rw [List.length_cons, List.length_cons, ih]

/-! ## Calls -/

open AchievementLang.Expr in
/-- A call binds the parameters as its arguments and the defaults say, each of them once, and
nothing else but the surplus arguments: `vs` are the values of what is given, evaluated in the scope
of the caller, and `ws` those of the defaults. -/
structure Function.Binds (f : Function) (caller : Scope) (args : List Expr) (loc : Option Loc)
    (vs ws : List Expr) (a : Activation) : Prop where
  function : a.function = f
  enclosing : a.scope.enclosing = [caller.globals]
  depth : a.scope.depth = caller.depth + 1
  /-- All that is written is evaluated but for the surplus arguments. -/
  evaluated : f.evaluated args = (unlabelled args).take f.fixed.length ++ labelled args
  defaulted : (f.defaulted (f.missing args)).map Prod.fst = f.missing args
  once : (f.given args ++ f.missing args).Perm f.fixed
  given : vs.length = (f.given args).length
  missing : ws.length = (f.missing args).length
  frame : a.scope.frame = (f.given args).zip vs ++ (f.missing args).zip ws ++
    if f.isVariadic then
      [(surplusVariable, .array ((unlabelled args).drop f.fixed.length) loc)]
    else []

namespace Scope

open AchievementLang.Expr

variable {limit : Int} {depth : Option Int} {scope : Scope} {name : String} {args : List Expr}
  {s s₁ s₂ : State} {f : Function} {vs ws : List Expr}

theorem run_bindCall (hf : s.functions.get? name = some f) (hdepth : scope.depth < depth.getD limit)
    (loc : Option Loc) :
    (scope.bindCall limit depth name args loc).run s =
      (Activation.bind f (Engine.within limit scope.callee).reduce scope loc
        (args.map ((Engine.within limit scope).suspended scope))).run s := by
  rw [bindCall, run_bind, Engine.run_resolve hf]
  dsimp only
  rw [if_neg (not_le.2 hdepth), Engine.arguments_eq_map]

section Fits

variable (hf : s.functions.get? name = some f) (hdepth : scope.depth < depth.getD limit)
  (hnodup : f.fixed.Nodup)
  (hargs : ((f.evaluated args).mapM (scope.reduce limit)).run s = (.ok vs, s₁))
  (loc : Option Loc)
include hf hdepth hnodup hargs

theorem run_bindCall_of_refuses (h : f.Refuses args) : ∃ cause l s', cause.kind = .badCall ∧
    (scope.bindCall limit depth name args loc).run s = (.error (.at? cause l), s') := by
  have hbind := Activation.run_bindArguments (m := Engine.within limit scope) hnodup
    Function.bound_nil hargs
  obtain ⟨cause, l, hkind, hrun⟩ := hbind.2 fun hadmits => Function.admits_nil_iff.1 hadmits h
  refine ⟨cause, l, s₁, hkind, ?_⟩
  rw [run_bindCall hf hdepth loc, Activation.bind, run_bind, ← Function.progress_nil, hrun]

variable (hfits : ¬f.Refuses args)
  (hdefaults : Fills (Scope.reduce limit) { scope.callee with frame := (f.given args).zip vs }
    (f.defaulted (f.missing args)) s₁ ws s₂)
include hfits

/-- Arguments that fit are bound, and then defaults are bound. -/
theorem run_bindCall_of_not_refuses : f.Bound args vs ∧
    (scope.bindCall limit depth name args loc).run s =
      (do
        let bound := f.progress (Engine.within limit scope) scope args vs
        let scope' ← f.fixed.foldlM
          (Activation.bindDefault f (Engine.within limit scope.callee).reduce loc) bound.scope
        return ⟨f, Activation.bindSurplus f loc bound.surplus scope', bound.surplus, loc⟩ :
          Eval Activation).run s₁ := by
  have hbind := Activation.run_bindArguments (m := Engine.within limit scope) hnodup
    Function.bound_nil hargs
  obtain ⟨hbound, hrun⟩ := hbind.1 (Function.admits_nil_iff.2 hfits)
  refine ⟨hbound, ?_⟩
  rw [run_bindCall hf hdepth loc, Activation.bind, run_bind, ← Function.progress_nil, hrun]
  rfl

include hdefaults

theorem run_bindCall_of_lacks (h : f.Lacks args) : ∃ cause l s', cause.kind = .badCall ∧
    (scope.bindCall limit depth name args loc).run s = (.error (.at? cause l), s') := by
  obtain ⟨hbound, hrun⟩ := run_bindCall_of_not_refuses hf hdepth hnodup hargs loc hfits
  rw [Function.Lacks] at h
  rw [← Activation.unbound_progress hbound (Engine.within limit scope) scope] at hdefaults h
  obtain ⟨cause, hkind, hfail⟩ :=
    (Activation.run_bindDefaults hnodup (hdefaults.within scope.callee rfl) loc).2 h
  refine ⟨cause, loc, s₂, hkind, hrun.trans ?_⟩
  rw [run_bind, Function.progress, hfail]

theorem run_bindCall_of_fits (hsurplus : surplusVariable ∉ f.fixed) (h : ¬f.Lacks args) :
    ∃ a, (scope.bindCall limit depth name args loc).run s = (.ok a, s₂) ∧
      f.Binds scope args loc vs ws a := by
  obtain ⟨hbound, hrun⟩ := run_bindCall_of_not_refuses hf hdepth hnodup hargs loc hfits
  have hunbound := Activation.unbound_progress hbound (Engine.within limit scope) scope
  have hhas : ∀ x ∈ f.missing args, f.defaults.get? x ≠ none := by
    simpa [Function.Lacks] using h
  have hws : ws.length = (f.missing args).length := by
    rw [hdefaults.length_eq, ← congrArg List.length (Function.map_defaulted hhas), List.length_map]
  rw [← hunbound] at hdefaults hhas
  have hfill :=
    (Activation.run_bindDefaults hnodup (hdefaults.within scope.callee rfl) loc).1 hhas
  rw [Function.progress] at hunbound hrun
  rw [hunbound] at hfill
  rw [run_bind, hfill] at hrun
  have hperm := Function.given_append_missing_perm hnodup hfits hbound.nodup
  have hkeys : ((f.given args).zip vs ++ (f.missing args).zip ws).map Prod.fst =
      f.given args ++ f.missing args := by
    rw [List.map_append, List.map_fst_zip hbound.length.ge, List.map_fst_zip hws.ge]
  let full : Scope :=
    { scope.callee with frame := (f.given args).zip vs ++ (f.missing args).zip ws }
  have hnew : surplusVariable ∉ full.frame.map Prod.fst :=
    fun h => hsurplus (hperm.subset (hkeys ▸ h))
  have hscope := Activation.bindSurplus_eq f loc
    (((unlabelled args).drop f.fixed.length).map ((Engine.within limit scope).suspended scope)) hnew
  refine ⟨_, hrun, ⟨rfl, ?_, ?_, ?_, ?_, hperm, hbound.length, hws, ?_⟩⟩
  · rw [hscope]
    rfl
  · rw [hscope]
    rfl
  · exact (Function.admits_nil_iff.2 hfits).evaluatedAfter_eq
  · exact Function.map_defaulted (by simpa [Function.Lacks] using h)
  · rw [hscope, Engine.map_source_suspended]

end Fits

/-- **Binding a call** succeeds and binds as is written, or fails because of what is written. -/
theorem bindCall_iff {loc : Option Loc} (hf : s.functions.get? name = some f)
    (hdepth : scope.depth < depth.getD limit) (hnodup : f.fixed.Nodup)
    (hsurplus : surplusVariable ∉ f.fixed)
    (hargs : ((f.evaluated args).mapM (scope.reduce limit)).run s = (.ok vs, s₁))
    (hdefaults : ¬f.Refuses args →
      Fills (Scope.reduce limit) { scope.callee with frame := (f.given args).zip vs }
        (f.defaulted (f.missing args)) s₁ ws s₂) :
    ((∃ fault s', (scope.bindCall limit depth name args loc).run s = (.error (.fault fault), s') ∧
        fault.cause.kind = .badCall) ↔ f.Refuses args ∨ f.Lacks args) ∧
      (¬(f.Refuses args ∨ f.Lacks args) → ∃ a,
        (scope.bindCall limit depth name args loc).run s = (.ok a, s₂) ∧
          f.Binds scope args loc vs ws a) := by
  by_cases hfits : f.Refuses args
  · obtain ⟨cause, l, s', hkind, hrun⟩ :=
      run_bindCall_of_refuses hf hdepth hnodup hargs loc hfits
    exact ⟨⟨fun _ => .inl hfits, fun _ => ⟨_, s', hrun, hkind⟩⟩, fun h => absurd (.inl hfits) h⟩
  by_cases hlacks : f.Lacks args
  · obtain ⟨cause, l, s', hkind, hrun⟩ :=
      run_bindCall_of_lacks hf hdepth hnodup hargs loc hfits (hdefaults hfits) hlacks
    exact ⟨⟨fun _ => .inr hlacks, fun _ => ⟨_, s', hrun, hkind⟩⟩, fun h => absurd (.inr hlacks) h⟩
  · obtain ⟨a, hrun, hbinds⟩ := run_bindCall_of_fits hf hdepth hnodup hargs loc hfits
      (hdefaults hfits) hsurplus hlacks
    refine ⟨⟨?_, fun h => (h.elim hfits hlacks).elim⟩, fun _ => ⟨a, hrun, hbinds⟩⟩
    rintro ⟨fault, s', hfail, -⟩
    rw [hrun] at hfail
    cases hfail

/-- A function whose last parameter stands between the other two unless it is given. -/
def spread : Function :=
  .declared ⟨"spread", ["low", "high", "middle", ellipsis],
    [("middle", .math .add (.var "low" none) (.var "high" none) none)], []⟩

/-- A number by position, and a variable of the caller by name. -/
def spreadArguments : List Expr := [.integer 1 none, .assign "high" (.var "low" none) none]

/-- A call by position and by name, from where a variable has the name of a parameter. -/
theorem bindCall_spread :
    ∃ a, (Scope.bindCall 1 none { frame := [("low", .integer 5 none)] } "spread" spreadArguments
        none).run { functions := [("spread", spread)] } =
        (.ok a, { functions := [("spread", spread)] }) ∧
      a.scope.frame =
        [("low", .integer 1 none), ("high", .integer 5 none), ("middle", .integer 6 none),
          (surplusVariable, .array [] none)] := by
  have hfits : ¬spread.Refuses spreadArguments :=
    Function.admits_nil_iff.1 ⟨rfl, rfl, trivial⟩
  have hlacks : ¬spread.Lacks spreadArguments := by
    rintro ⟨x, hx, hnone⟩
    obtain rfl : x = "middle" := List.mem_singleton.1 hx
    cases hnone
  obtain ⟨a, hrun, hbinds⟩ := (@bindCall_iff 1 none { frame := [("low", .integer 5 none)] } "spread"
    spreadArguments { functions := [("spread", spread)] } { functions := [("spread", spread)] }
    { functions := [("spread", spread)] } spread [.integer 1 none, .integer 5 none]
    [.integer 6 none] none
    rfl (by decide) (by decide) (by decide) rfl fun _ => .cons rfl (.nil _ _)).2
      (not_or.2 ⟨hfits, hlacks⟩)
  exact ⟨a, hrun, hbinds.frame⟩

end Scope

end AchievementLang

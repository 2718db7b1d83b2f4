import AchievementLang.Proofs.Eval.ConcurringEngines
import AchievementLang.Proofs.Eval.Parameters

/-!
# Callers are not observed

A function that a script declares sees its arguments, the globals and the functions, and nothing
else of the scope that it is called from. **From all callers in which the arguments come to the
same, a call comes to the same** (`Scope.endAlike_call`), be it an expression or a statement: to the
same value or the same error, and with the same registered and declared. The callers need have
nothing in common but the globals and the depth of calls.

Parameters are bound to values in a scope of which the caller is no part (`Scope.callee`). But
surplus arguments are evaluated when the body of the function starts, and in the scope of the
caller. They come to what they would have come to before the call, since no function has been
declared in between: where an argument is left over every parameter has been given, so there is no
default to evaluate (`Activation.holds_of_bind`); and what has been registered in between does not
matter (`Scope.reduce_of_functions_eq`).
-/

namespace AchievementLang

open Eval

/-! ## Evaluation from another state -/

/-- Names denote the same functions, and the same was registered since the registries were those
that are given. -/
structure State.InStep (r r' : Option Registry) (s t : State) : Prop where
  functions : s.functions = t.functions
  declares : r.isSome = r'.isSome
  registry : ∃ added : Registry, s.registry = r.map (·.append added) ∧
    t.registry = r'.map (·.append added)

theorem State.InStep.register {r r' : Option Registry} {s t : State} (h : InStep r r' s t)
    {change : Registry → Registry}
    (hchange : ∀ r added : Registry, change (r.append added) = r.append (change added)) :
    InStep r r' { s with registry := s.registry.map change }
      { t with registry := t.registry.map change } := by
  obtain ⟨added, hs, ht⟩ := h.registry
  have hadded (o : Option Registry) :
      (o.map (·.append added)).map change = o.map (·.append (change added)) := by
    rw [Option.map_map]
    exact congrArg (Option.map · o) (funext fun r => hchange r added)
  exact ⟨h.functions, h.declares, change added, by rw [hs, hadded], by rw [ht, hadded]⟩

/-- Evaluations are compared by what they come to, in all or but for places, and by what they
register and declare. No failure is excused. -/
def Comparison.stepping (places : Bool) (r r' : Option Registry) : Comparison where
  places := places
  depths := false
  excused _ := False
  code _ := True
  states := State.InStep r r'
  kept _ := True
  left _ := trivial
  functions h := h.functions
  declares h := by
    obtain ⟨added, hs, ht⟩ := h.registry
    rw [hs, ht, Option.isSome_map, Option.isSome_map, h.declares]
  record h _ := ⟨h.functions, h.declares, h.registry⟩
  register hchange h := h.register hchange
  declare _ h := ⟨congrArg (Bindings.set · _ _) h.functions, h.declares, h.registry⟩
  rest _ := trivial
  body _ _ := trivial

theorem concurs_stepping (places : Bool) (r r' : Option Registry) (limit : Int) (scope : Scope) :
    (Engine.within limit scope).Concurs (.stepping places r r') (Engine.within limit scope) :=
  concurs_within le_rfl (.inl rfl) scope

theorem Registry.append_empty (r : Registry) : r.append {} = r := by
  rw [append, List.append_nil, List.append_nil]

namespace State

theorem inStep_refl {s t : State} (h : s.functions = t.functions)
    (hr : s.registry.isSome = t.registry.isSome) : InStep s.registry t.registry s t where
  functions := h
  declares := hr
  registry := ⟨{}, by simp [Registry.append_empty], by simp [Registry.append_empty]⟩

variable {s t u w : State}

theorem append_eq_self {r added : Registry} (h : r.append added = r) : added = {} := by
  obtain ⟨hachievements, hleaderboards⟩ := Registry.mk.inj h
  obtain ⟨achievements, leaderboards⟩ := added
  cases List.append_right_eq_self.1 hachievements
  cases List.append_right_eq_self.1 hleaderboards
  rfl

/-- What is in step with a state that has stayed as it was has stayed as it was. -/
theorem InStep.alike (h : InStep s.registry u.registry t w) (ht : s.Alike t)
    (hu : s.functions = u.functions) : u.Alike w := by
  refine ⟨hu.symm.trans (ht.functions.trans h.functions), ?_⟩
  obtain ⟨added, hadded, hw⟩ := h.registry
  rw [← ht.registry] at hadded
  have hdeclares := h.declares
  cases hs : s.registry with
  | none =>
    rw [hs] at hdeclares
    have hu : u.registry = none := Option.isNone_iff_eq_none.1 (by simpa using hdeclares.symm)
    rw [hw, hu]
    rfl
  | some r =>
    rw [hs] at hadded
    have hempty := append_eq_self (Option.some.inj hadded).symm
    rw [hw, hempty]
    cases u.registry with
    | none => rfl
    | some r' => exact congrArg some (Registry.append_empty r').symm

end State

namespace Scope

variable {limit : Int} {scope : Scope} {s t u : State} {e v : Expr}

/-- What comes to a value and leaves the state as it was does so from all states with the same
functions, whatever has been registered there. -/
theorem reduce_of_functions_eq (hrun : (scope.reduce limit e).run s = (.ok v, t)) (ht : s.Alike t)
    (hfunctions : s.functions = u.functions) (hregistry : s.registry.isSome = u.registry.isSome) :
    ∃ w, (scope.reduce limit e).run u = (.ok v, w) ∧ u.Alike w := by
  have hm := concurs_stepping true s.registry u.registry limit scope
  have h := hm.reduce_like (.refl _ _ scope) e s u (State.inStep_refl hfunctions hregistry)
  change Concur _ _ _ ((scope.reduce limit e).run s) ((scope.reduce limit e).run u) at h
  rw [hrun] at h
  generalize (scope.reduce limit e).run u = r at h
  cases h with
  | value hv hst =>
    obtain rfl := hv.eq rfl
    exact ⟨_, rfl, hst.alike ht hfunctions⟩

end Scope

/-! ## Surplus arguments -/

namespace Activation

variable {f : Function} {reduce : Scope → Expr → Eval Expr} {caller : Scope} {loc : Option Loc}
  {args : List Argument} {P : State → Prop}

/-- Every parameter is bound or comes next, and none does where an argument has been left over. -/
structure Progress.Covers (f : Function) (p : Progress) : Prop where
  bound : ∀ x ∈ f.fixed, x ∈ p.next ∨ p.scope.frame.has x = true
  surplus : p.surplus ≠ [] → p.next = []

theorem has_define {scope : Scope} {x : String} (y : String) (v : Expr)
    (h : scope.frame.has x = true) : (scope.define y v).frame.has x = true := by
  rw [Scope.define, Bindings.has, Bindings.get?_set]
  split
  · rfl
  · exact h

theorem has_define_self (scope : Scope) (x : String) (v : Expr) :
    (scope.define x v).frame.has x = true := by
  rw [Scope.define, Bindings.has, Bindings.get?_set_self]
  rfl

/-- An argument is bound or left over as the parameters are covered. -/
theorem upholds_bindArgument {a : Argument}
    (ha : Upholds P (fun _ _ => True) a.reduce fun _ => True)
    {p : Progress} (hp : p.Covers f) :
    Upholds P (fun _ _ => True) (bindArgument f p a)
      (Progress.Covers f) := by
  unfold bindArgument
  split
  next x _ =>
    unfold bindNamed
    split
    · exact fun _ _ => trivial
    split
    · exact fun _ _ => trivial
    refine ha.bind fun v _ => upholds_pure ⟨fun y hy => ?_, hp.surplus⟩
    exact (hp.bound y hy).imp_right (has_define x v)
  next =>
    unfold bindNext
    split
    · exact fun _ _ => trivial
    split
    next x rest hnext =>
      have hempty : p.surplus = [] := by
        by_contra hne
        exact List.cons_ne_nil x rest (hnext.symm.trans (hp.surplus hne))
      refine ha.bind fun v _ => upholds_pure ⟨fun y hy => ?_, fun hne => (hne hempty).elim⟩
      obtain hmem | hbound := hp.bound y hy
      · rw [hnext] at hmem
        obtain rfl | hmem := List.mem_cons.1 hmem
        · exact .inr (has_define_self _ _ _)
        · exact .inl hmem
      · exact .inr (has_define x v hbound)
    next hnext =>
      split
      · exact upholds_pure ⟨hp.bound, fun _ => hnext⟩
      · exact fun _ _ => trivial

/-- Where an argument is left over all parameters have been given, so no default is evaluated and
what the arguments have kept is kept. -/
theorem holds_of_bind (hargs : ∀ a ∈ args, Upholds P (fun _ _ => True) a.reduce fun _ => True)
    {s t : State} (hs : P s) {a : Activation}
    (hrun : (bind f reduce caller loc args).run s = (.ok a, t)) (hsurplus : a.surplus ≠ []) :
    P t := by
  have hstart : Progress.Covers f { scope := caller.callee, next := f.fixed } :=
    ⟨fun _ => .inl, fun h => (h rfl).elim⟩
  have hbound := upholds_foldlM hstart
    (fun a ha p hp => upholds_bindArgument (hargs a ha) hp) s hs
  rw [bind, run_bind] at hrun
  generalize (args.foldlM (bindArgument f) { scope := caller.callee, next := f.fixed }).run s = r
    at hrun hbound
  obtain ⟨_ | p, s'⟩ := r
  · cases hrun
  obtain ⟨hs', hcovers⟩ := hbound
  by_cases hp : p.surplus = []
  · dsimp only at hrun
    rw [run_bind] at hrun
    split at hrun
    · cases hrun
      exact (hsurplus hp).elim
    · cases hrun
  · have hdefaults : f.fixed.foldlM (bindDefault f reduce loc) p.scope = pure p.scope :=
      bindDefaults_of_bound fun x hx => by simpa [hcovers.surplus hp] using hcovers.bound x hx
    dsimp only at hrun
    rw [hdefaults, pure_bind] at hrun
    cases hrun
    exact hs'

theorem function_of_bind {s t : State} {a : Activation}
    (hrun : (bind f reduce caller loc args).run s = (.ok a, t)) : a.function = f := by
  rw [bind, run_bind] at hrun
  split at hrun
  next p s' _ =>
    rw [run_bind] at hrun
    split at hrun
    · cases hrun
      rfl
    · cases hrun
  next => cases hrun

end Activation

/-! ## Two callers -/

/-- Two evaluations ended alike: with the same value or the same error, with the same registrations
and with the same functions. Where places do not count errors still say the same
(`Failure.diagnostic?_bare`). -/
structure Eval.EndAlike {α : Type} (bare : α → α) (places : Bool)
    (p q : Except Failure α × State) : Prop where
  outcome : Same (bareOutcome bare) places p.1 q.1
  state : p.2.Alike q.2

/-- How statements ended, apart from the variables that they set. -/
def ending (r : Engine.Outcome × State) : Except Failure (Option Expr) × State := (r.1.2, r.2)

theorem Eval.Concur.endAlike {α : Type} {bare : α → α} {places : Bool} {r : Option Registry}
    {p q : Except Failure α × State}
    (h : Concur (.stepping places r r) (State.InStep r r) (Same bare places) p q) :
    EndAlike bare places p q := by
  have halike {s t : State} (hst : State.InStep r r s t) : s.Alike t := by
    obtain ⟨added, hs, ht⟩ := hst.registry
    exact ⟨hst.functions, hs.trans ht.symm⟩
  cases h with
  | value hab hst =>
    exact ⟨⟨congrArg Except.ok hab.bare_eq, fun hp => congrArg Except.ok (hab.eq hp)⟩, halike hst⟩
  | failure hf hst =>
    exact ⟨⟨congrArg Except.error hf.bare_eq, fun hp => congrArg Except.error (hf.eq hp)⟩,
      halike hst⟩
  | excused hf => exact hf.elim

/-- What has been entered has been bound. -/
theorem Engine.bind_of_enter {m : Engine} {scope : Scope} {name : String} {args : List Argument}
    {loc : Option Loc} {s t : State} {f : Function} {i : Inner} {a : Activation}
    (hname : s.functions.get? name = some f)
    (hrun : (m.enter scope name args loc).run s = (.ok (i, a), t)) :
    (Activation.bind f i.reduce scope loc args).run s = (.ok a, t) := by
  rw [enter, run_bind, run_resolve hname] at hrun
  cases hm : m.inner with
  | none =>
    rw [hm] at hrun
    cases hrun
  | some j =>
    rw [hm] at hrun
    dsimp only at hrun
    rw [run_bind] at hrun
    split at hrun
    next b s' hbind =>
      cases hrun
      exact hbind
    next => cases hrun

namespace Scope

/-- The expression comes to the same value in both scopes, and nothing is declared or registered on
the way. -/
def Agree (limit : Int) (places : Bool) (s : State) (scope scope' : Scope) (e : Expr) : Prop :=
  ∃ v v' t t', (scope.reduce limit e).run s = (.ok v, t) ∧
    (scope'.reduce limit e).run s = (.ok v', t') ∧ Same Expr.bare places v v' ∧
    s.Alike t ∧ s.Alike t'

/-- Nothing has been declared since the given state. -/
structure Undeclared (s u : State) : Prop where
  functions : s.functions = u.functions
  registry : s.registry.isSome = u.registry.isSome

/-- Nothing has been declared since the given state, and the same was registered. -/
structure Unchanged (s u w : State) : Prop where
  inStep : State.InStep s.registry s.registry u w
  functions : s.functions = u.functions

/-- Where the function has been entered the same was registered, and nothing has been declared if
there are arguments left over, which are yet to be evaluated. -/
structure Entered (s : State) (a : Activation) (u w : State) : Prop where
  inStep : State.InStep s.registry s.registry u w
  undeclared : a.surplus ≠ [] → Undeclared s u

theorem Entered.unchanged {s u w : State} {a : Activation} (h : Entered s a u w)
    (hsurplus : a.surplus ≠ []) : Unchanged s u w :=
  ⟨h.inStep, (h.undeclared hsurplus).functions⟩

variable {limit : Int} {places : Bool} {scope scope' : Scope} {s : State} {name : String}
  {d : Declaration} {args : List Expr}

theorem entered_record (a : Activation) (e e' : Event) :
    Concurs (.stepping places s.registry s.registry) (Entered s a) (Entered s a) Eq (record e)
      (record e') := fun _ _ h =>
  .value rfl ⟨⟨h.inStep.functions, h.inStep.declares, h.inStep.registry⟩,
    fun hsurplus => ⟨(h.undeclared hsurplus).functions, (h.undeclared hsurplus).registry⟩⟩

theorem Agree.upholds {e : Expr} (h : scope.Agree limit places s scope' e) :
    Upholds (Undeclared s) (fun _ _ => True) (scope.reduce limit e) fun _ => True := by
  obtain ⟨v, -, t, -, hrun, -, -, ht, -⟩ := h
  intro u hu
  obtain ⟨w, hrunu, hw⟩ := reduce_of_functions_eq hrun ht hu.functions hu.registry
  rw [hrunu]
  exact ⟨⟨hu.functions.trans hw.functions, by rw [hu.registry, hw.registry]⟩, trivial⟩

theorem Agree.concurs {e : Expr} (h : scope.Agree limit places s scope' e) :
    Concurs (.stepping places s.registry s.registry) (Unchanged s) (Unchanged s)
      (Same Expr.bare places) (scope.reduce limit e) (scope'.reduce limit e) := by
  obtain ⟨v, v', t, t', hrun, hrun', hsame, ht, ht'⟩ := h
  rintro u w ⟨huw, hu⟩
  obtain ⟨added, hur, hwr⟩ := huw.registry
  obtain ⟨u', hrunu, hu'⟩ := reduce_of_functions_eq hrun ht hu (by rw [hur, Option.isSome_map])
  obtain ⟨w', hrunw, hw'⟩ := reduce_of_functions_eq hrun' ht' (hu.trans huw.functions)
    (by rw [hwr, Option.isSome_map])
  rw [hrunu, hrunw]
  refine .value hsame ⟨⟨?_, rfl, added, ?_, ?_⟩, hu.trans hu'.functions⟩
  · rw [← hu'.functions, ← hw'.functions, huw.functions]
  · rw [← hu'.registry, hur]
  · rw [← hw'.registry, hwr]

section Callers

variable (hd : s.functions.get? name = some (.declared d))
  (hglobals : scope.globals = scope'.globals) (hdepth : scope.depth = scope'.depth)
  (hargs : ∀ a ∈ args, scope.Agree limit places s scope' a.argument)
include hd hglobals hdepth hargs

/-- From two callers, a function is entered alike and then goes on alike. -/
theorem concur_entered {α β : Type} {T : α → β → Prop} {k : Inner × Activation → Eval α}
    {k' : Inner × Activation → Eval β} (loc : Option Loc)
    (hk : ∀ i j a b, i.Concurs (.stepping places s.registry s.registry) j →
      a.Concurs (.stepping places s.registry s.registry) (Unchanged s) b →
      a.function = .declared d →
      Concurs (.stepping places s.registry s.registry) (Entered s a)
        (State.InStep s.registry s.registry) T (k (i, a)) (k' (j, b))) :
    Concur (.stepping places s.registry s.registry) (State.InStep s.registry s.registry) T
      (((Engine.within limit scope).enter scope name
        ((Engine.within limit scope).arguments scope args) loc >>= k).run s)
      (((Engine.within limit scope').enter scope' name
        ((Engine.within limit scope').arguments scope' args) loc >>= k').run s) := by
  have hwithin : Engine.within limit scope' = Engine.within limit scope := by
    rw [Engine.within, Engine.within, hdepth]
  have hcallee : scope.callee.Like places false scope'.callee :=
    like_callee (hglobals ▸ .refl _ _ _) nofun
  have hsuspended : List.Forall₂
      (Argument.Concurs (.stepping places s.registry s.registry) (Unchanged s))
      ((Engine.within limit scope).arguments scope args)
      ((Engine.within limit scope').arguments scope' args) := by
    rw [Engine.arguments_eq_map, Engine.arguments_eq_map, List.forall₂_map_left_iff,
      List.forall₂_map_right_iff, List.forall₂_same]
    exact fun a ha => ⟨rfl, failAlike_of_same (.refl _ _ _), (hargs a ha).concurs⟩
  have hkept : ∀ a ∈ (Engine.within limit scope).arguments scope args,
      Upholds (Undeclared s) (fun _ _ => True) a.reduce fun _ => True := by
    rw [Engine.arguments_eq_map]
    intro a ha
    obtain ⟨e, he, rfl⟩ := List.mem_map.1 ha
    exact (hargs e he).upholds
  rw [hwithin] at hsuspended ⊢
  have hm := concurs_stepping places s.registry s.registry limit scope
  have henter := hm.enter (fun _ _ => Unchanged.inStep) hcallee name hsuspended loc s s
    ⟨State.inStep_refl rfl rfl, rfl⟩
  rw [run_bind, run_bind]
  generalize hp : ((Engine.within limit scope).enter scope name
    ((Engine.within limit scope).arguments scope args) loc).run s = p,
    ((Engine.within limit scope).enter scope' name
      ((Engine.within limit scope).arguments scope' args) loc).run s = q at henter ⊢
  cases henter with
  | failure hf hst => exact .failure hf hst
  | excused hf => exact hf.elim
  | @value x y t t' hxy hst =>
    obtain ⟨i, a⟩ := x
    obtain ⟨j, b⟩ := y
    obtain ⟨hij, hab⟩ := hxy
    have hbind := Engine.bind_of_enter hd hp
    refine hk i j a b hij hab (Activation.function_of_bind hbind) t t' ⟨hst, fun hsurplus => ?_⟩
    exact Activation.holds_of_bind hkept ⟨rfl, rfl⟩ hbind hsurplus

/-- **A function does not see who calls it.** -/
theorem endAlike_call (loc : Option Loc) :
    EndAlike Expr.bare places ((scope.reduce limit (.call name args loc)).run s)
        ((scope'.reduce limit (.call name args loc)).run s) ∧
      EndAlike (Option.map Expr.bare) places
        (ending ((scope.execute limit [.call name args loc]).run s))
        (ending ((scope'.execute limit [.call name args loc]).run s)) := by
  have hvalue : Concur (.stepping places s.registry s.registry)
      (State.InStep s.registry s.registry) (Same Expr.bare places)
      ((scope.reduce limit (.call name args loc)).run s)
      ((scope'.reduce limit (.call name args loc)).run s) := by
    rw [reduce, reduce, Engine.reduce, Engine.reduce]
    refine concur_entered hd hglobals hdepth hargs loc fun i j a b hij hab ha => ?_
    refine (entered_record a _ _).bind_loosely (fun _ _ => Entered.inStep) fun _ _ _ => ?_
    exact hab.reduce_declared (fun _ _ => Unchanged.inStep) (fun _ _ => Entered.inStep)
      (fun hsurplus _ _ hst => hst.unchanged hsurplus) hij ha
  have heffect : Concur (.stepping places s.registry s.registry)
      (State.InStep s.registry s.registry) Eq
      (((Engine.within limit scope).perform scope name
        ((Engine.within limit scope).arguments scope args) loc).run s)
      (((Engine.within limit scope').perform scope' name
        ((Engine.within limit scope').arguments scope' args) loc).run s) := by
    refine concur_entered hd hglobals hdepth hargs loc fun i j a b hij hab ha => ?_
    refine (entered_record a _ _).bind_loosely (fun _ _ => Entered.inStep) fun _ _ _ => ?_
    exact hab.evaluate_declared (fun _ _ => Unchanged.inStep) (fun _ _ => Entered.inStep)
      (fun hsurplus _ _ hst => hst.unchanged hsurplus) hij ha
  refine ⟨hvalue.endAlike, ?_⟩
  rw [execute, execute, Engine.run_execute_call, Engine.run_execute_call]
  generalize ((Engine.within limit scope).perform scope name
    ((Engine.within limit scope).arguments scope args) loc).run s = p,
    ((Engine.within limit scope').perform scope' name
      ((Engine.within limit scope').arguments scope' args) loc).run s = q at heffect
  refine Concur.endAlike (r := s.registry) ?_
  cases heffect with
  | value _ hst => exact .value (.refl _ _ _) hst
  | failure hf hst => exact .failure hf hst
  | excused hf => exact hf.elim

end Callers

/-- A function with a default and any number of further arguments. -/
def scoring : Declaration where
  name := "score"
  params := ["base", "bonus", ellipsis]
  defaults := [("bonus", .var "step" none)]
  body := [.ret (.math .add (.var "base" none) (.var "bonus" none) none) none]

/-- A call of it with an argument too many. -/
def scoringArgs : List Expr :=
  [.var "x" none, .integer 2 none, .math .add (.var "x" none) (.integer 1 none) none]

def scoringState : State where
  functions := FunctionTable.initial.set scoring.name (.declared scoring)

def nearCaller : Scope where
  frame := [("x", .integer 5 (some ⟨1, 5⟩))]
  enclosing := [[("step", .integer 4 none)]]
  depth := 1

/-- In another function, the variable was set elsewhere, and there is a variable more. -/
def farCaller : Scope where
  frame := [("bonus", .string "kept" none), ("x", .integer 5 (some ⟨9, 7⟩))]
  enclosing := [[("step", .integer 4 none)]]
  depth := 1

theorem endAlike_call_twoCallers :
    (∀ a ∈ scoringArgs, nearCaller.Agree 64 false scoringState farCaller a.argument) ∧
      EndAlike Expr.bare false
        ((nearCaller.reduce 64 (.call "score" scoringArgs none)).run scoringState)
        ((farCaller.reduce 64 (.call "score" scoringArgs none)).run scoringState) ∧
      EndAlike (Option.map Expr.bare) false
        (ending ((nearCaller.execute 64 [.call "score" scoringArgs none]).run scoringState))
        (ending ((farCaller.execute 64 [.call "score" scoringArgs none]).run scoringState)) := by
  have hargs : ∀ a ∈ scoringArgs, nearCaller.Agree 64 false scoringState farCaller a.argument := by
    simp only [scoringArgs, List.forall_mem_cons]
    refine ⟨?_, ?_, ?_, nofun⟩
    · exact ⟨_, _, _, _, rfl, rfl, ⟨rfl, nofun⟩, .refl _, .refl _⟩
    · exact ⟨_, _, _, _, rfl, rfl, ⟨rfl, nofun⟩, .refl _, .refl _⟩
    · exact ⟨_, _, _, _, rfl, rfl, ⟨rfl, nofun⟩, .refl _, .refl _⟩
  have hglobals : nearCaller.globals = farCaller.globals := rfl
  have hdepth : nearCaller.depth = farCaller.depth := rfl
  exact ⟨hargs, endAlike_call rfl hglobals hdepth hargs none⟩

example : ((farCaller.reduce 64 (.call "score" scoringArgs none)).run scoringState).1 =
    .ok (.integer 7 none) := rfl

end Scope

end AchievementLang

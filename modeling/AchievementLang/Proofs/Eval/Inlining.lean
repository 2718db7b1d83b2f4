import AchievementLang.Proofs.Eval.FunctionsKept
import AchievementLang.Proofs.Eval.Replacing

/-!
# Calls of helper functions inlined

Scripts name parts of conditions by functions whose body is one expression. A call of such a
function **may be replaced by that expression**, with the values of the arguments in place of the
parameters (`Scope.reduce_substitute`). What the call comes to is found by evaluating the body one
call deeper, where the parameters are variables; `Engine.Concurs.reduce` moves that to the scope of
the call.

For the same reason it makes no difference whether an expression or its value is written:
**evaluating twice is evaluating once** (`Scope.reduce_reduce`).

Both are about the global scope after some statements, whether these came to their end or failed.
Its variables hold values, there is no frame around it and no call has led to it, and the functions
of the language are kept if the statements declare none of them (`Scope.reached`).
-/

namespace AchievementLang

open Eval

/-! ## The global scope after statements -/

namespace FunctionTable

/-- Functions are found by their names. -/
def Named (t : FunctionTable) : Prop :=
  ∀ name f, Bindings.get? t name = some f → f.name = name

theorem Named.set {t : FunctionTable} (h : t.Named) (d : Declaration) :
    Named (Bindings.set t d.name (.declared d)) := by
  intro name f hf
  rw [Bindings.get?_set] at hf
  split at hf
  next hname =>
    cases hf
    exact hname
  next => exact h name f hf

end FunctionTable

theorem Eval.KeepsFunctions.meets {α : Type} {x : Eval α} (h : KeepsFunctions x)
    (P : FunctionTable → Prop) :
    Meets (fun s => P s.functions) x (fun _ s => P s.functions) (fun _ s => P s.functions) := by
  intro s hs
  have hfunctions := h s
  generalize x.run s = r at hfunctions ⊢
  obtain ⟨_ | a, s'⟩ := r
  · exact (congrArg P hfunctions).mpr hs
  · exact (congrArg P hfunctions).mpr hs

/-- The least that evaluation keeps, and all that it needs to come to values. A failure keeps it as
well, so it holds where a run of statements was broken off. -/
def namedContract : Contract where
  Inv s := s.functions.Named
  Fails _ s := s.functions.Named
  named h := h _ _
  declare d h := h.set d
  reducing _ _ h := h
  evaluating _ _ h := h
  fault _ h := h
  achievement _ := (Activation.keepsFunctions_registerAchievement _).meets FunctionTable.Named
  leaderboard _ := (Activation.keepsFunctions_registerLeaderboard _).meets FunctionTable.Named

theorem restartSound_named (limit : Int) (n : Nat) :
    RestartSound namedContract (restarting limit n) := by
  induction n with
  | zero => exact fun scope i k l l' _ s hs => hs
  | succ n ih =>
    exact fun scope i k l l' hscope => (sound_engine limit ih limit.toNat).reduce hscope _

theorem sound_within_named (limit : Int) (scope : Scope) :
    (Engine.within limit scope).Sound namedContract :=
  sound_engine limit (restartSound_named limit _) _

/-- Statements set the variables of their own scope. -/
theorem Engine.execute_enclosing (m : Engine) (body : List Expr) (scope : Scope) (s : State) :
    ((m.execute scope body).run s).1.1.enclosing = scope.enclosing ∧
      ((m.execute scope body).run s).1.1.depth = scope.depth := by
  induction body generalizing scope s with
  | nil => exact ⟨rfl, rfl⟩
  | cons e rest ih =>
    cases e with
    | assign x e loc =>
      rw [run_execute_assign]
      split
      · exact ih _ _
      · exact ⟨rfl, rfl⟩
    | declare name params defaults body loc =>
      rw [run_execute_declare]
      split
      · exact ⟨rfl, rfl⟩
      · exact ih _ _
    | call name args loc =>
      rw [run_execute_call]
      split
      · exact ih _ _
      · exact ⟨rfl, rfl⟩
    | _ => exact ⟨rfl, rfl⟩

namespace Scope

/-- What is true of the global scope after statements that leave the functions of the language
alone. -/
structure Reached (scope : Scope) (s : State) : Prop where
  reduced : scope.IsReduced
  enclosing : scope.enclosing = []
  depth : scope.depth = 0
  named : s.functions.Named
  intact : s.functions.Intact

variable {limit : Int} {statements : List Expr} {scope : Scope}
  {outcome : Except Failure (Option Expr)} {s s' : State}

theorem reached (h : LeavesLanguage statements)
    (hrun : (({} : Scope).execute limit statements).run {} = ((scope, outcome), s)) :
    scope.Reached s := by
  have hnamed : FunctionTable.initial.Named := fun _ _ => FunctionTable.sound_initial.named
  have hran : Engine.Ran namedContract ((({} : Scope).execute limit statements).run {}) :=
    (sound_within_named limit {}).execute statements isReduced_empty hnamed
  have henclosing := (Engine.within limit {}).execute_enclosing statements {} {}
  have hintact := intact_execute limit {} h (s := {}) FunctionTable.intact_initial
  rw [Scope.execute] at hran hrun hintact
  rw [hrun] at hran henclosing hintact
  refine ⟨hran.1, henclosing.1, henclosing.2, ?_, hintact⟩
  cases outcome with
  | ok v => exact hran.2.1
  | error f => exact hran.2

theorem Reached.isReduced (h : scope.Reached s) {e v : Expr}
    (hrun : (scope.reduce limit e).run s = (.ok v, s')) : v.IsReduced := by
  have hkeeps := (sound_within_named limit scope).reduce h.reduced e s h.named
  rw [Scope.reduce] at hrun
  rw [hrun] at hkeeps
  exact hkeeps.2

/-- Below the limit a call is permitted, and its body is run by an engine that permits one call
less. -/
theorem exists_inner (hdepth : scope.depth < limit) :
    ∃ (inner : Inner) (n : Nat), (Engine.within limit scope).inner = some inner ∧
      inner.run = (engine limit (restarting limit restartLimit) n).run ∧
      n ≤ (limit - scope.depth).toNat := by
  obtain ⟨n, hn⟩ : ∃ n, (limit - scope.depth).toNat = n + 1 :=
    ⟨(limit - scope.depth).toNat - 1, by omega⟩
  rw [Engine.within, hn]
  exact ⟨_, n, rfl, rfl, by omega⟩

/-! ## Evaluating twice -/

/-- **Evaluating twice is evaluating once**: a value of the global scope evaluates to itself there,
and nothing is declared or registered. -/
theorem reduce_reduce (hlimit : 1 ≤ limit) (hstatements : LeavesLanguage statements)
    (hrun : (({} : Scope).execute limit statements).run {} = ((scope, outcome), s)) {e r : Expr}
    (hreduce : (scope.reduce limit e).run s = (.ok r, s')) :
    ∃ events, (scope.reduce limit r).run s' = (.ok r, { s' with events := events }) := by
  have hreached := reached hstatements hrun
  have hdepth : scope.depth < limit := by
    rw [hreached.depth]
    omega
  obtain ⟨inner, n, hinner, -⟩ := exists_inner hdepth
  have hintact : s'.functions.Intact := by
    have h := intact_reduce limit scope e hreached.intact
    rwa [hreduce] at h
  obtain ⟨t, ht, hs't⟩ := (hreached.isReduced hreduce).gives hintact hinner s' (.refl s')
  obtain ⟨functions, registry, events⟩ := t
  obtain ⟨rfl, rfl⟩ := hs't
  exact ⟨events, ht⟩

/-- The body of a function that tells whether the byte at an address is a number. -/
def levelBody : Expr :=
  .compare .eq (.call "byte" [.integer 16 none] none) (.var "n" none) none

/-- The function, and a global of the name of its parameter. -/
def levelStatements : List Expr :=
  [.assign "n" (.integer 7 none) none, .declare "level" ["n"] [] [.ret levelBody none] none]

theorem leavesLanguage_levelStatements : LeavesLanguage levelStatements := by
  have h : ∀ f ∈ Function.all, f.name ∉ ["level"] := by decide
  exact fun f hf => h f (Function.mem_all hf)

/-- A call of the function, at a sum. -/
def levelCall : Expr :=
  .call "level" [.math .add (.integer 1 none) (.integer 2 none) none] none

/-- What the call is worth. -/
def levelValue : Expr :=
  .compare .eq (.call "byte" [.integer 16 none] none) (.integer 3 none) none

/-- Two calls inside each other are enough for it, and its value evaluates to itself. -/
theorem reduce_reduce_levelCall :
    ∃ scope s s', (({} : Scope).execute 2 levelStatements).run {} = ((scope, .ok none), s) ∧
      (scope.reduce 2 levelCall).run s = (.ok levelValue, s') ∧
      ∃ events, (scope.reduce 2 levelValue).run s' =
        (.ok levelValue, { s' with events := events }) :=
  ⟨_, _, _, rfl, rfl,
    reduce_reduce (e := levelCall) (by decide) leavesLanguage_levelStatements rfl rfl⟩

/-! ## Calls inlined -/

theorem get?_zip_mem {xs : List String} {vs : List Expr} {x : String} {v : Expr}
    (h : Bindings.get? (xs.zip vs) x = some v) : v ∈ vs := by
  induction xs generalizing vs with
  | nil => cases h
  | cons y ys ih =>
    cases vs with
    | nil => cases h
    | cons w ws =>
      rw [List.zip_cons_cons, Bindings.get?] at h
      split at h
      · cases h
        exact List.mem_cons_self
      · exact List.mem_cons_of_mem w (ih h)

/-- The body of a function sees its parameters and the globals, so nothing else is missed where it
is called. -/
theorem replaces_params {m : Engine} {inner : Inner} (hm : m.inner = some inner)
    (hscope : scope.enclosing = []) (xs : List String) {vs : List Expr}
    (hvs : ∀ v ∈ vs, v.IsReduced) :
    m.Replaces .keeping (xs.zip vs) { scope.callee with frame := xs.zip vs } scope where
  callee := like_callee (.refl _ _ scope.globals) nofun
  free {x} hx := by
    have hglobals : scope.globals = scope.frame := by rw [globals, hscope]; rfl
    simp only [get?, lookup, callee, hx, hglobals, hscope, Option.none_or]
    exact .refl _ _ _
  bound {x v} hx := by
    have hv : v.IsReduced := hvs _ (get?_zip_mem hx)
    refine ⟨?_, inStep_of_gives fun u hu => hv.gives hu hm⟩
    simp only [get?, lookup, hx, Option.some_or]
  positional hx := (hvs _ (get?_zip_mem hx)).isPositional
  loc _ _ _ _ _ := inStep_of_excused trivial _

/-- A function whose body is one expression is worth that expression, one call deeper. -/
theorem run_reduce_applied {m n : Engine} {inner : Inner} (hinner : inner.run = n.run)
    {d : Declaration} {e : Expr} {l : Option Loc} (hbody : d.body = [.ret e l])
    (hfixed : (Function.declared d).isVariadic = false) (loc : Option Loc) (vs : List Expr)
    (s : State) :
    ((Activation.applied (.declared d) scope loc vs).reduce m inner).run s =
      (n.reduce { scope.callee with frame := d.params.zip vs } e).run s := by
  have hrun : ((Activation.applied (.declared d) scope loc vs).runDeclared inner d).run s =
      (((n.reduce { scope.callee with frame := d.params.zip vs } e).run s).1.map some,
        ((n.reduce { scope.callee with frame := d.params.zip vs } e).run s).2) := by
    unfold Activation.runDeclared
    rw [Activation.applied, hfixed, if_neg Bool.false_ne_true, hinner, hbody]
    rfl
  refine (run_bind ((Activation.applied (.declared d) scope loc vs).runDeclared inner d) _
    s).trans ?_
  rw [hrun]
  generalize (n.reduce { scope.callee with frame := d.params.zip vs } e).run s = r
  obtain ⟨_ | v, s'⟩ := r <;> rfl

theorem depth_lt_of_call {name : String} {f : Function}
    (hname : s.functions.get? name = some f) {args : List Expr} {loc : Option Loc} {r : Expr}
    (hcall : (scope.reduce limit (.call name args loc)).run s = (.ok r, s')) :
    scope.depth < limit := by
  by_contra hdepth
  have hnone : (Engine.within limit scope).inner = none := by
    have hzero : (limit - scope.depth).toNat = 0 := by omega
    rw [Engine.within, hzero]
    rfl
  obtain ⟨t, ht, -⟩ := Engine.gives_resolve hname loc s (.refl s)
  rw [Scope.reduce, Engine.reduce, Engine.call, run_bind, Engine.enter, run_bind, ht,
    hnone] at hcall
  cases hcall

/-- **A call of a helper function may be replaced by its body**, with the values of the arguments in
place of the parameters. The function is one whose body is one expression; its parameters are
distinct, all are given, and evaluating the arguments neither registers nor declares anything. -/
theorem reduce_substitute (hstatements : LeavesLanguage statements)
    (hrun : (({} : Scope).execute limit statements).run {} = ((scope, outcome), s))
    {name : String} {d : Declaration} {e : Expr} {l : Option Loc}
    (hname : s.functions.get? name = some (.declared d)) (hbody : d.body = [.ret e l])
    (hparams : d.params.Nodup) (hfixed : ellipsis ∉ d.params) {args vs : List Expr}
    (hpositional : ∀ a ∈ args, a.IsPositional) (hlength : args.length = d.params.length)
    (hargs : List.Forall₂
      (fun a v => ∃ t, (scope.reduce limit a).run s = (.ok v, t) ∧ s.Alike t) args vs)
    {loc : Option Loc} {r : Expr} {s₁ : State}
    (hcall : (scope.reduce limit (.call name args loc)).run s = (.ok r, s₁)) :
    ∃ s₂, (scope.reduce limit (e.substitute (d.params.zip vs))).run s = (.ok r, s₂) ∧
      s₁.Alike s₂ := by
  have hreached := reached hstatements hrun
  have hvariadic : (Function.declared d).isVariadic = false := by
    refine beq_eq_false_iff_ne.2 fun hlast => hfixed (List.mem_of_getLast? hlast)
  have hdepth : scope.depth < limit := depth_lt_of_call hname hcall
  obtain ⟨inner, n, hinner, hinnerRun, hn⟩ := exists_inner hdepth
  have hvalues : ∀ v ∈ vs, v.IsReduced := by
    intro v hv
    obtain ⟨i, hi, rfl⟩ := List.getElem_of_mem hv
    obtain ⟨t, ht, -⟩ := (List.forall₂_iff_get.1 hargs).2 i (hargs.length_eq ▸ hi) hi
    exact hreached.isReduced ht
  -- The function is entered with the values of the arguments,
  have henter : Gives s ((Engine.within limit scope).enter scope name
      ((Engine.within limit scope).arguments scope args) loc) _ :=
    Engine.gives_enter hinner hname hvariadic hparams (hlength ▸ hargs.length_eq) hpositional
      (hargs.imp fun a v ⟨t, ht, hst⟩ =>
        gives_of_inStep (inStep_reduce limit scope a) hreached.intact ht hst)
  obtain ⟨t, ht, hst⟩ := henter s (.refl s)
  obtain ⟨u, hu, htu⟩ := gives_record t _ t (.refl t)
  rw [Scope.reduce, Engine.reduce, Engine.call, run_bind, ht] at hcall
  dsimp only at hcall
  rw [run_bind, hu] at hcall
  dsimp only at hcall
  rw [run_reduce_applied hinnerRun hbody hvariadic] at hcall
  -- and what its body comes to, it comes to in the scope of the call as well.
  have hsu := hst.trans htu
  have hconcur := (concurs_keeping hn).reduce
    (replaces_params hinner hreached.enclosing d.params hvalues) e u s
    ⟨hsu.functions ▸ hreached.intact, hsu.symm⟩
  rw [hcall] at hconcur
  rw [Scope.reduce]
  generalize ((Engine.within limit scope).reduce scope (e.substitute (d.params.zip vs))).run s = r'
    at hconcur ⊢
  cases hconcur with
  | value hr hs =>
    obtain rfl := hr.eq rfl
    exact ⟨_, rfl, hs.2⟩

/-- The call of the function, with its parameter replaced. -/
theorem reduce_substitute_levelCall :
    ∃ scope s s₁ s₂, (({} : Scope).execute 2 levelStatements).run {} = ((scope, .ok none), s) ∧
      (scope.reduce 2 levelCall).run s = (.ok levelValue, s₁) ∧
      (scope.reduce 2 (levelBody.substitute [("n", .integer 3 none)])).run s =
        (.ok levelValue, s₂) ∧ s₁.Alike s₂ := by
  have hrun : ∃ scope s s₁, (({} : Scope).execute 2 levelStatements).run {} =
        ((scope, .ok none), s) ∧
      (scope.reduce 2 levelCall).run s = (.ok levelValue, s₁) ∧
      s.functions.get? "level" = some (.declared ⟨"level", ["n"], [], [.ret levelBody none]⟩) ∧
      ∃ t, (scope.reduce 2 (.math .add (.integer 1 none) (.integer 2 none) none)).run s =
        (.ok (.integer 3 none), t) ∧ s.Alike t :=
    ⟨_, _, _, rfl, rfl, rfl, _, rfl, rfl, rfl⟩
  obtain ⟨scope, s, s₁, hexecute, hcall, hname, harg⟩ := hrun
  obtain ⟨s₂, hs₂⟩ := reduce_substitute leavesLanguage_levelStatements hexecute hname rfl
    (by decide) (by decide) (by simp [Expr.IsPositional]) rfl (.cons harg .nil) hcall
  exact ⟨scope, s, s₁, s₂, hexecute, hcall, hs₂⟩

end Scope

end AchievementLang

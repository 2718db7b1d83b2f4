import AchievementLang.Proofs.Eval.Concurrence
import AchievementLang.Proofs.Eval.Substitution

/-!
# Engines compared

Two engines evaluate an expression to the same in scopes that hold the same
(`Engine.Concurs.reduce_like`), and run statements to the same (`Engine.Concurs.run`), if all that
they leave to others does so. What they leave to others is one call deeper, or starts over from the
global scope, so both are by induction: on the number of calls that are still permitted
(`concurs_engine`), and on the number of times that evaluation may still start over
(`concurs_restarting`). The second engine may permit more calls, if it is excused to run out of
them.

In the second expression variables may be replaced by what they hold (`Engine.Concurs.reduce`),
where that evaluates to itself (`Engine.Replaces`).

A call of a declared function is treated for itself: its surplus arguments are evaluated when its
body starts, in whatever scope they were written, and need only come to the same in the states that
are possible there (`Activation.Concurs.runDeclared`).
-/

namespace AchievementLang

open Eval

variable {C : Comparison} {I J : State → State → Prop}

/-! ## Engines -/

/-- What is evaluated one call deeper comes to the same in scopes that hold the same. -/
structure Inner.Concurs (C : Comparison) (i j : Inner) : Prop where
  reduce : Activation.Reduces C i.reduce j.reduce
  run : ∀ {s t : Scope}, s.Like C.places C.depths t → ∀ {body}, C.code body →
    InStep C (Same (Option.map Expr.bare) C.places) (i.run s body) (j.run t body)

/-- What starts over comes to the same in scopes that hold the same. It is a call with a number,
which may have been written elsewhere. -/
def RestartConcurs (C : Comparison) (restart restart' : Scope → Expr → Eval Expr) : Prop :=
  ∀ {s t : Scope}, s.Like C.places C.depths t → ∀ name n {l l' : Option Loc} loc,
    Same noPlace C.places l l' →
    InStep C (Same Expr.bare C.places) (restart s (.call name [.integer n l] loc))
      (restart' t (.call name [.integer n l'] loc))

/-- All that the engines leave to others comes to the same in scopes that hold the same. If the
first permits no more calls, the second does not either, or the first is excused. -/
structure Engine.Concurs (C : Comparison) (m m' : Engine) : Prop where
  inner : ∀ i ∈ m.inner, ∃ j ∈ m'.inner, i.Concurs C j
  exhausted : m.inner = none → (m'.inner = none ∧ m.limit = m'.limit) ∨
    ∀ name loc, C.excused (.at? (.callDepth m.limit name) loc)
  restart : RestartConcurs C m.restart m'.restart

namespace Activation

variable {m m' : Engine} {i j : Inner} {a b : Activation}

section Declared

variable (h : a.Concurs C I b) (hI : ∀ s t, I s t → C.states s t)
  (hJ : ∀ s t, J s t → C.states s t) (hJI : a.surplus ≠ [] → ∀ s t, J s t → I s t)
include h hI hJ hJI

/-- Surplus arguments, if there are any, come to the same where evaluation starts. -/
theorem Concurs.reducedSurplus_of :
    Eval.Concurs C J C.states (Same Expr.bareAll C.places) a.reducedSurplus b.reducedSurplus := by
  by_cases hnil : a.surplus = []
  · have hnil' : b.surplus = [] := by
      have hsurplus := h.surplus
      rwa [hnil, List.forall₂_nil_left_iff] at hsurplus
    rw [Activation.reducedSurplus, Activation.reducedSurplus, hnil, hnil']
    exact (concurs_pure Expr.same_nil).mono hJ
  · exact (h.reducedSurplus.of_imp (hJI hnil)).mono hI

variable (hinner : i.Concurs C j) {d : Declaration} (hd : a.function = .declared d)
include hinner hd

/-- The body of a function comes to the same. -/
theorem Concurs.runDeclared :
    Eval.Concurs C J C.states (Same (Option.map Expr.bare) C.places) (a.runDeclared i d)
      (b.runDeclared j d) := by
  unfold Activation.runDeclared
  rw [← h.function, ← h.loc]
  split
  · refine (h.reducedSurplus_of hI hJ hJI).bind fun vs ws hvs => ?_
    exact hinner.run (h.define (Expr.same_array hvs _)) (h.code d hd)
  next hvariadic =>
    exact (hinner.run (h.scope (by simpa using hvariadic)) (h.code d hd)).of_imp hJ

/-- The value of a call of a declared function. -/
theorem Concurs.reduce_declared :
    Eval.Concurs C J C.states (Same Expr.bare C.places) (a.reduce m i) (b.reduce m' j) := by
  unfold Activation.reduce
  rw [← h.function, hd]
  refine (h.runDeclared hI hJ hJI hinner hd).bind fun v w hvw => ?_
  obtain ⟨rfl, rfl⟩ | ⟨v, w, rfl, rfl, hsame⟩ := hvw.option
  · rw [h.loc]
    exact concurs_fail _ (.refl _ _ _)
  · exact concurs_pure hsame

/-- The effect of a call of a declared function. -/
theorem Concurs.evaluate_declared :
    Eval.Concurs C J C.states Eq (a.evaluate m i) (b.evaluate m' j) := by
  unfold Activation.evaluate
  rw [← h.function, hd]
  exact (h.runDeclared hI hJ hJI hinner hd).bind fun _ _ _ => concurs_pure rfl

end Declared

section

variable (hm : m.Concurs C m') (hinner : i.Concurs C j) (h : a.Concurs C C.states b)
include hm hinner h

/-- The value of a call. -/
theorem Concurs.reduce : InStep C (Same Expr.bare C.places) (a.reduce m i) (b.reduce m' j) := by
  have hfunction := h.function
  have hlike := h.like
  cases hf : a.function
  case declared d =>
    exact h.reduce_declared (fun _ _ => id) (fun _ _ => id) (fun _ _ _ => id) hinner hf
  all_goals rw [Activation.reduce, Activation.reduce, ← hfunction, hf]; rw [hf] at hlike
  case accessor => exact (hlike rfl).accessor
  case bit =>
    refine (hlike rfl).bit.bind fun e e' ⟨name, n, l, l', loc, hl, he, he'⟩ => ?_
    rw [he, he']
    exact hm.restart (hlike rfl).scope.root name n loc hl
  case prev => exact (hlike rfl).prev
  case once | never | pausing => exact (hlike rfl).around
  case repeated => exact (hlike rfl).repeated
  case constant => exact concurs_pure ((hlike rfl).again Expr.same_nil)
  case maxOf => exact h.maxOf
  case achievement | leaderboard =>
    rw [h.loc]
    exact concurs_fail _ (.refl _ _ _)

/-- The effect of a call. -/
theorem Concurs.evaluate : InStep C Eq (a.evaluate m i) (b.evaluate m' j) := by
  have hreduce := h.reduce hm hinner
  have hfunction := h.function
  cases hf : a.function
  case declared d =>
    exact h.evaluate_declared (fun _ _ => id) (fun _ _ => id) (fun _ _ _ => id) hinner hf
  all_goals rw [Activation.evaluate, Activation.evaluate, ← hfunction, hf]
  case achievement => exact (h.like (hf ▸ rfl)).registerAchievement
  case leaderboard => exact (h.like (hf ▸ rfl)).registerLeaderboard
  all_goals exact hreduce.bind fun _ _ _ => concurs_pure rfl

end

end Activation

namespace Engine

variable {m m' : Engine} {s t : Scope} {as bs : List Argument}

/-- A call enters the function from both scopes, or fails alike. -/
theorem Concurs.enter (hm : m.Concurs C m') (hI : ∀ s t, I s t → C.states s t)
    (hst : s.callee.Like C.places C.depths t.callee) (name : String)
    (habs : List.Forall₂ (Argument.Concurs C I) as bs) (loc : Option Loc) :
    Eval.Concurs C I C.states (fun x y => x.1.Concurs C y.1 ∧ x.2.Concurs C I y.2)
      (m.enter s name as loc) (m'.enter t name bs loc) := by
  have hresolve : Eval.Concurs C I I
      (fun f g => f = g ∧ ∀ d, f = .declared d → C.code d.body)
      (resolve name loc) (resolve name loc) := by
    intro u w huw
    rw [resolve, run_bind, run_bind, run_function?, run_function?, ← C.functions (hI u w huw)]
    dsimp only
    cases hf : u.functions.get? name with
    | none => exact .failure (.refl _ _ _) huw
    | some f => exact .value ⟨rfl, fun d hd => C.body (hI u w huw) (hd ▸ hf)⟩ huw
  refine hresolve.bind_loosely hI fun f g hfg => ?_
  obtain ⟨rfl, hcode⟩ := hfg
  cases hi : m.inner with
  | none =>
    obtain ⟨hi', hlimit⟩ | hexcused := hm.exhausted hi
    · rw [hi', hlimit]
      exact (concurs_fail _ (.refl _ _ _)).mono hI
    · exact (inStep_of_excused (hexcused name loc) _).of_imp hI
  | some i =>
    obtain ⟨j, hj, hij⟩ := hm.inner i hi
    rw [Option.mem_def.1 hj]
    refine (Activation.concurs_bind hI hij.reduce hcode hst habs).bind fun a b hab => ?_
    exact concurs_pure ⟨hij, hab⟩

section

variable (hm : m.Concurs C m') (hst : s.callee.Like C.places C.depths t.callee) (name : String)
  (habs : List.Forall₂ (Argument.Concurs C C.states) as bs) (loc : Option Loc)
include hm hst habs

theorem Concurs.call :
    InStep C (Same Expr.bare C.places) (m.call s name as loc) (m'.call t name bs loc) := by
  refine (hm.enter (fun _ _ => id) hst name habs loc).bind fun ⟨i, a⟩ ⟨j, b⟩ ⟨hij, hab⟩ => ?_
  exact (inStep_record fun _ hd => congrArg _ (hab.depth hd)).bind_eq fun _ => hab.reduce hm hij

theorem Concurs.perform : InStep C Eq (m.perform s name as loc) (m'.perform t name bs loc) := by
  refine (hm.enter (fun _ _ => id) hst name habs loc).bind fun ⟨i, a⟩ ⟨j, b⟩ ⟨hij, hab⟩ => ?_
  exact (inStep_record fun _ hd => congrArg _ (hab.depth hd)).bind_eq fun _ => hab.evaluate hm hij

end

/-! ## Expressions -/

/-- Where variables are replaced by the values that they hold in the first scope, nothing else is
looked up differently in the second; and the values evaluate to themselves. -/
structure Replaces (C : Comparison) (m : Engine) (values : Bindings Expr) (s t : Scope) : Prop where
  callee : s.callee.Like C.places C.depths t.callee
  free : ∀ {x}, values.get? x = none →
    Same (Option.map Expr.bare) C.places (s.get? x) (t.get? x)
  bound : ∀ {x v}, values.get? x = some v → s.get? x = some v ∧
    InStep C (Same Expr.bare C.places) (pure v) (m.reduce t v)
  positional : ∀ {x v}, values.get? x = some v → v.IsPositional
  loc : ∀ e : Expr, FailAlike C C.states e.loc (e.substitute values).loc

theorem replaces_nil (m : Engine) (h : s.Like C.places C.depths t) : Replaces C m [] s t where
  callee := h.callee
  free _ := h.get? _
  bound := nofun
  positional := nofun
  loc e := by
    rw [Expr.substitute_nil]
    exact failAlike_of_same (.refl _ _ _)

variable {values : Bindings Expr}

mutual

/-- **The value of an expression** depends on what the scope holds, and on the functions. Variables
may be replaced by what they hold. -/
theorem Concurs.reduce (hm : m.Concurs C m') (h : Replaces C m' values s t) (e : Expr) :
    InStep C (Same Expr.bare C.places) (m.reduce s e) (m'.reduce t (e.substitute values)) := by
  cases e with
  | string | integer =>
    rw [Engine.reduce, Expr.substitute, Engine.reduce]
    exact concurs_pure (.refl _ _ _)
  | var x loc =>
    rw [Engine.reduce, Expr.substitute]
    cases hx : values.get? x with
    | some v =>
      obtain ⟨hs, hv⟩ := h.bound hx
      rw [hs]
      exact hv
    | none =>
      rw [Option.getD_none, Engine.reduce]
      obtain ⟨hs, ht⟩ | ⟨v, w, hs, ht, hvw⟩ := (h.free hx).option
      · rw [hs, ht]
        exact concurs_fail _ (.refl _ _ _)
      · rw [hs, ht]
        exact concurs_pure hvw
  | call name args loc =>
    rw [Engine.reduce, Expr.substitute, Engine.reduce]
    exact hm.call h.callee name (Concurs.arguments hm h args) loc
  | compare r a b loc =>
    rw [Engine.reduce, Expr.substitute, Engine.reduce]
    refine (Concurs.reduce hm h a).bind fun v v' hv => ?_
    exact (Concurs.reduce hm h b).bind fun w w' hw => concurs_pure (Expr.same_compare r hv hw loc)
  | math op a b loc =>
    rw [Engine.reduce, Expr.substitute, Engine.reduce]
    refine (Concurs.reduce hm h a).bind fun v v' hv => ?_
    refine (Concurs.reduce hm h b).bind fun w w' hw => concurs_ofExcept ?_
    exact hv.map₂ (f := fun a b => (Expr.combine op a b loc).mapError Failure.fault)
      (g := fun a b => (Expr.combine op a b none).mapError Failure.fault)
      (fun a b => Expr.combine_bare op a b loc) hw
  | not e loc =>
    rw [Engine.reduce, Expr.substitute, Engine.reduce]
    exact (Concurs.reduce hm h e).bind fun v v' hv => concurs_pure (Expr.same_not hv loc)
  | logic op es loc =>
    rw [Engine.reduce, Expr.substitute, Engine.reduce]
    exact (Concurs.reduceAll hm h es).bind fun vs ws hvs =>
      concurs_pure (Expr.same_logic op hvs loc)
  | array es loc =>
    rw [Engine.reduce, Expr.substitute, Engine.reduce]
    exact (Concurs.reduceAll hm h es).bind fun vs ws hvs => concurs_pure (Expr.same_array hvs loc)
  | assign | ret | declare =>
    rw [Engine.reduce, Expr.substitute, Engine.reduce]
    exact concurs_fail _ (.refl _ _ _)

theorem Concurs.reduceAll (hm : m.Concurs C m') (h : Replaces C m' values s t) (es : List Expr) :
    InStep C (Same Expr.bareAll C.places) (m.reduceAll s es)
      (m'.reduceAll t (Expr.substituteAll values es)) := by
  cases es with
  | nil => exact concurs_pure Expr.same_nil
  | cons e rest =>
    rw [Engine.reduceAll, Expr.substituteAll, Engine.reduceAll]
    refine (Concurs.reduce hm h e).bind fun v v' hv => ?_
    exact (Concurs.reduceAll hm h rest).bind fun vs ws hvs =>
      concurs_pure (Expr.same_cons hv hvs)

theorem Concurs.arguments (hm : m.Concurs C m') (h : Replaces C m' values s t) (es : List Expr) :
    List.Forall₂ (Argument.Concurs C C.states) (m.arguments s es)
      (m'.arguments t (Expr.substituteAll values es)) := by
  cases es with
  | nil => exact .nil
  | cons e rest =>
    have hrest := Concurs.arguments hm h rest
    have hloc := h.loc e
    cases e with
    | assign x e loc =>
      rw [Engine.arguments, Expr.substituteAll, Expr.substitute, Engine.arguments]
      refine .cons ⟨rfl, failAlike_of_same (.refl _ _ _), ?_⟩ hrest
      exact Concurs.reduce hm h e
    | _ =>
      rw [Expr.substituteAll, arguments_cons, arguments_cons]
      · exact .cons ⟨rfl, hloc, Concurs.reduce hm h _⟩ hrest
      · exact .substitute h.positional (by rintro _ _ _ ⟨⟩)
      · rintro _ _ _ ⟨⟩

end

section

variable (hm : m.Concurs C m') (hst : s.Like C.places C.depths t)
include hm hst

/-- The value of an expression is the same in scopes that hold the same. -/
theorem Concurs.reduce_like (e : Expr) :
    InStep C (Same Expr.bare C.places) (m.reduce s e) (m'.reduce t e) := by
  simpa only [Expr.substitute_nil] using hm.reduce (replaces_nil m' hst) e

theorem Concurs.arguments_like (es : List Expr) :
    List.Forall₂ (Argument.Concurs C C.states) (m.arguments s es) (m'.arguments t es) := by
  simpa only [Expr.substituteAll_nil] using hm.arguments (replaces_nil m' hst) es

end

/-! ## Statements -/

/-- **Running statements** comes to the same. -/
theorem Concurs.run (hm : m.Concurs C m') (hst : s.Like C.places C.depths t) {body : List Expr}
    (hbody : C.code body) :
    InStep C (Same (Option.map Expr.bare) C.places) (m.run s body) (m'.run t body) := by
  intro u w huw
  change Concur C _ _ (((m.execute s body).run u).1.2, ((m.execute s body).run u).2)
    (((m'.execute t body).run w).1.2, ((m'.execute t body).run w).2)
  induction body generalizing s t u w with
  | nil => exact .value (.refl _ _ _) huw
  | cons e rest ih =>
    have hrest := C.rest hbody
    cases e with
    | ret e loc =>
      rw [run_execute_ret, run_execute_ret]
      have h := hm.reduce_like hst e u w huw
      generalize (m.reduce s e).run u = p, (m'.reduce t e).run w = q at h
      cases h with
      | value hv huw => exact .value hv.some huw
      | failure hf huw => exact .failure hf huw
      | excused hf hu q => exact .excused hf hu _
    | assign x e loc =>
      have h := hm.reduce_like hst e u w huw
      rw [run_execute_assign, run_execute_assign]
      generalize (m.reduce s e).run u = p, (m'.reduce t e).run w = q at h
      cases h with
      | value hv huw => exact ih (hst.define x hv) hrest _ _ huw
      | failure hf huw => exact .failure hf huw
      | excused hf hu q => exact .excused hf hu _
    | declare name params defaults body loc =>
      rw [run_execute_declare, run_execute_declare]
      split
      · exact .failure (.refl _ _ _) huw
      · exact ih hst hrest _ _ (C.declare hbody huw)
    | call name args loc =>
      have h := hm.perform hst.callee name (hm.arguments_like hst args) loc u w huw
      rw [run_execute_call, run_execute_call]
      generalize (m.perform s name (m.arguments s args) loc).run u = p,
        (m'.perform t name (m'.arguments t args) loc).run w = q at h
      cases h with
      | value _ huw => exact ih hst hrest _ _ huw
      | failure hf huw => exact .failure hf huw
      | excused hf hu q => exact .excused hf hu _
    | _ => exact .failure (.refl _ _ _) huw

end Engine

/-! ## The depth of calls -/

section Depth

variable {limit limit' : Int}

/-- If the second engine permits more calls, the first is excused to run out of them. -/
theorem concurs_engine {restart restart' : Scope → Expr → Eval Expr}
    (hrestart : RestartConcurs C restart restart') {n n' : Nat} (h : n ≤ n')
    (hcut : (n = n' ∧ limit = limit') ∨
      ∀ name loc, C.excused (.at? (.callDepth limit name) loc)) :
    (engine limit restart n).Concurs C (engine limit' restart' n') := by
  induction n generalizing n' with
  | zero =>
    cases n' with
    | zero => exact ⟨nofun, fun _ => hcut.imp_left fun h => ⟨rfl, h.2⟩, hrestart⟩
    | succ n' => exact ⟨nofun, fun _ => .inr (hcut.resolve_left fun h => nomatch h.1), hrestart⟩
  | succ n ih =>
    obtain ⟨k, rfl⟩ : ∃ k, n' = k + 1 := ⟨n' - 1, by omega⟩
    have hinner := ih (Nat.le_of_succ_le_succ h) (hcut.imp_left fun h => ⟨by omega, h.2⟩)
    refine ⟨fun i hi => ?_, nofun, hrestart⟩
    cases hi
    exact ⟨_, rfl, fun hst e => hinner.reduce_like hst e, fun hst _ hbody => hinner.run hst hbody⟩

variable (h : limit ≤ limit')
  (hcut : limit = limit' ∨ ∀ name loc, C.excused (.at? (.callDepth limit name) loc))
include h hcut

theorem concurs_restarting (k : Nat) :
    RestartConcurs C (restarting limit k) (restarting limit' k) := by
  induction k with
  | zero =>
    intro s t _ name n l l' loc _ u w huw
    exact .failure (.refl _ _ _) huw
  | succ k ih =>
    intro s t hst name n l l' loc hl
    rw [restarting, restarting, Engine.reduce, Engine.reduce]
    have hm : (engine limit (restarting limit k) limit.toNat).Concurs C
        (engine limit' (restarting limit' k) limit'.toNat) :=
      concurs_engine ih (Int.toNat_le_toNat h) (hcut.imp_left fun h => ⟨by rw [h], h⟩)
    refine hm.call hst.callee name ?_ loc
    have hpositional (k : Option Loc) : (Expr.integer n k).IsPositional := by rintro _ _ _ ⟨⟩
    rw [Engine.arguments_cons (hpositional l), Engine.arguments_cons (hpositional l'),
      Engine.arguments, Engine.arguments]
    exact .cons ⟨rfl, failAlike_of_same hl, concurs_pure (Expr.same_number n hl)⟩ .nil

/-- **The engines of a scope** evaluate to the same in scopes that hold the same. -/
theorem concurs_within (scope : Scope) :
    (Engine.within limit scope).Concurs C (Engine.within limit' scope) :=
  concurs_engine (concurs_restarting h hcut restartLimit) (Int.toNat_le_toNat (by omega))
    (hcut.imp_left fun h => ⟨by rw [h], h⟩)

end Depth

end AchievementLang

import AchievementLang.Proofs.Eval.Contract

/-!
# Evaluation keeps its invariants

A contract is kept by evaluation as a whole (`Engine.Sound.reduce`, `Engine.Sound.execute`), and
all that is evaluated are values in the sense of `Expr.IsReduced`. The induction is along the
expressions and the statements, and along the number of calls that are still permitted in
`sound_engine`. What is left to show of an engine is that it evaluates what calls of `bit` stand
for.
-/

namespace AchievementLang

open Eval

variable {C : Contract}

/-- The value that statements return is a value of evaluation, if there is any. -/
def Returned (v : Option Expr) : Prop := ∀ e ∈ v, e.IsReduced

/-- Evaluation one call deeper keeps the contract. -/
structure Inner.Sound (C : Contract) (inner : Inner) : Prop where
  reduce : ∀ scope e, scope.IsReduced → C.Keeps (inner.reduce scope e) Expr.IsReduced
  run : ∀ scope body, scope.IsReduced → C.Keeps (inner.run scope body) Returned

/-- What starts over from the global scope keeps the contract, for the calls that `bit` stands
for. -/
def RestartSound (C : Contract) (restart : Scope → Expr → Eval Expr) : Prop :=
  ∀ scope i n l l', scope.IsReduced →
    C.Keeps (restart scope (.call (Wire.Size.bit i).name [.integer n l] l')) Expr.IsReduced

/-- All that an engine leaves to others keeps the contract. -/
structure Engine.Sound (C : Contract) (m : Engine) : Prop where
  inner : ∀ inner ∈ m.inner, inner.Sound C
  restart : RestartSound C m.restart

/-! ## Calls -/

namespace Activation

variable {m : Engine} {inner : Inner} {a : Activation}

theorem keeps_runDeclared (hinner : inner.Sound C) (ha : a.Sound C) (d : Declaration) :
    C.Keeps (a.runDeclared inner d) Returned := by
  unfold runDeclared
  split
  · refine (keeps_reducedSurplus ha).bind fun vs hvs => ?_
    exact hinner.run _ _ (ha.define _ (.array hvs.2 a.loc))
  next h => exact hinner.run _ _ (ha.scope (by simpa using h))

/-- The value of a call of any function. -/
theorem keeps_reduce (hm : m.Sound C) (hinner : inner.Sound C) (ha : a.Sound C) :
    C.Keeps (a.reduce m inner) Expr.IsReduced := by
  have scope {f : Function} (hf : a.function = f) (h : f.isVariadic = false) :
      a.scope.IsReduced := ha.scope (hf ▸ h)
  unfold reduce
  split
  next s hf => exact keeps_accessor hf (scope hf rfl)
  next hf =>
    have hscope := scope hf rfl
    refine (keeps_bit hscope).bind fun e he => ?_
    obtain ⟨i, n, l, l', rfl⟩ := he
    exact hm.restart _ i n l l' hscope.root
  next hf => exact keeps_prev hf (scope hf rfl)
  next hf => exact keeps_around (hf ▸ rfl) (scope hf rfl)
  next hf => exact keeps_around (hf ▸ rfl) (scope hf rfl)
  next hf => exact keeps_around (hf ▸ rfl) (scope hf rfl)
  next hf => exact keeps_repeated hf (scope hf rfl)
  next holds hf =>
    refine Contract.keeps_pure ?_
    rw [again, hf]
    exact .constant holds a.loc
  next hf => exact keeps_maxOf hf ha
  next => exact Contract.keeps_fail _ _
  next => exact Contract.keeps_fail _ _
  next d hf =>
    refine (keeps_runDeclared hinner ha d).bind fun v hv => ?_
    split
    · exact Contract.keeps_pure (hv _ rfl)
    · exact Contract.keeps_fail _ _

/-- The effect of a call of any function. -/
theorem keeps_evaluate (hm : m.Sound C) (hinner : inner.Sound C) (ha : a.Sound C) :
    C.Keeps (a.evaluate m inner) fun _ => True := by
  unfold evaluate
  split
  next hf => exact (C.achievement (ha.scope (hf ▸ rfl))).post fun _ _ hs => ⟨hs, trivial⟩
  next hf => exact (C.leaderboard (ha.scope (hf ▸ rfl))).post fun _ _ hs => ⟨hs, trivial⟩
  next d hf => exact (keeps_runDeclared hinner ha d).bind fun _ _ => Contract.keeps_pure trivial
  next => exact (keeps_reduce hm hinner ha).bind fun _ _ => Contract.keeps_pure trivial

end Activation

namespace Engine

theorem run_resolve {s : State} {name : String} {f : Function}
    (h : s.functions.get? name = some f) (loc : Option Loc) :
    (resolve name loc).run s = (.ok f, s) := by
  rw [resolve, run_bind, run_function?, h]
  rfl

variable {m : Engine} {scope : Scope} {args : List Argument}

theorem keeps_enter (hm : m.Sound C) (hscope : scope.IsReduced) (hargs : ∀ a ∈ args, a.Sound C)
    (name : String) (loc : Option Loc) :
    C.Keeps (m.enter scope name args loc) fun r => r.1.Sound C ∧ r.2.Sound C := by
  refine Contract.Keeps.bind (Q := fun _ => True) ?_ fun f _ => ?_
  · refine (Contract.keeps_function? name).bind fun f _ => ?_
    split
    · exact Contract.keeps_pure trivial
    · exact Contract.keeps_fail _ _
  · split
    · exact Contract.keeps_fail _ _
    next inner hinner =>
      have hinner := hm.inner inner hinner
      refine (Activation.keeps_bind hinner.reduce hscope hargs).bind fun a ha => ?_
      exact Contract.keeps_pure ⟨hinner, ha.2⟩

theorem keeps_call (hm : m.Sound C) (hscope : scope.IsReduced) (hargs : ∀ a ∈ args, a.Sound C)
    (name : String) (loc : Option Loc) :
    C.Keeps (m.call scope name args loc) Expr.IsReduced := by
  refine (keeps_enter hm hscope hargs name loc).bind fun ⟨inner, a⟩ ⟨hinner, ha⟩ => ?_
  refine Contract.Keeps.bind (Q := fun _ => True) ?_ fun _ _ => Activation.keeps_reduce hm hinner ha
  exact fun s hs => ⟨C.reducing name _ hs, trivial⟩

theorem keeps_perform (hm : m.Sound C) (hscope : scope.IsReduced)
    (hargs : ∀ a ∈ args, a.Sound C) (name : String) (loc : Option Loc) :
    C.Keeps (m.perform scope name args loc) fun _ => True := by
  refine (keeps_enter hm hscope hargs name loc).bind fun ⟨inner, a⟩ ⟨hinner, ha⟩ => ?_
  refine Contract.Keeps.bind (Q := fun _ => True) ?_
    fun _ _ => Activation.keeps_evaluate hm hinner ha
  exact fun s hs => ⟨C.evaluating name _ hs, trivial⟩

/-! ## Expressions -/

theorem keeps_combine (op : Operator) {a b : Expr} (ha : a.IsReduced) (hb : b.IsReduced)
    (loc : Option Loc) :
    C.Keeps (Eval.ofExcept ((Expr.combine op a b loc).mapError .fault)) Expr.IsReduced := by
  intro s hs
  cases h : Expr.combine op a b loc with
  | ok v => exact ⟨hs, ha.combine hb h⟩
  | error f => exact C.fault f hs

mutual

/-- **The value of an expression** keeps the contract, and is a value of evaluation. -/
theorem Sound.reduce (hm : m.Sound C) (hscope : scope.IsReduced) (e : Expr) :
    C.Keeps (m.reduce scope e) Expr.IsReduced := by
  cases e with
  | string s l =>
    rw [Engine.reduce]
    exact Contract.keeps_pure (.string s l)
  | integer n l =>
    rw [Engine.reduce]
    exact Contract.keeps_pure (.integer n l)
  | var x l =>
    rw [Engine.reduce]
    split
    next v hv => exact Contract.keeps_pure (hscope.get? hv)
    next => exact Contract.keeps_fail _ _
  | call name args l =>
    rw [Engine.reduce]
    exact keeps_call hm hscope (hm.arguments hscope args) name l
  | compare r a b l =>
    rw [Engine.reduce]
    refine (Sound.reduce hm hscope a).bind fun a' ha => ?_
    refine (Sound.reduce hm hscope b).bind fun b' hb => ?_
    exact Contract.keeps_pure (.compare r ha hb l)
  | math op a b l =>
    rw [Engine.reduce]
    refine (Sound.reduce hm hscope a).bind fun a' ha => ?_
    refine (Sound.reduce hm hscope b).bind fun b' hb => ?_
    exact keeps_combine op ha hb l
  | not e l =>
    rw [Engine.reduce]
    exact (Sound.reduce hm hscope e).bind fun e' he => Contract.keeps_pure (.not he l)
  | logic op es l =>
    rw [Engine.reduce]
    exact (hm.reduceAll hscope es).bind fun es' hes => Contract.keeps_pure (.logic op hes l)
  | array es l =>
    rw [Engine.reduce]
    exact (hm.reduceAll hscope es).bind fun es' hes => Contract.keeps_pure (.array hes l)
  | assign x e l =>
    rw [Engine.reduce]
    exact Contract.keeps_fail _ _
  | ret e l =>
    rw [Engine.reduce]
    exact Contract.keeps_fail _ _
  | declare f params defaults body l =>
    rw [Engine.reduce]
    exact Contract.keeps_fail _ _

theorem Sound.reduceAll (hm : m.Sound C) (hscope : scope.IsReduced) (es : List Expr) :
    C.Keeps (m.reduceAll scope es) fun vs => ∀ v ∈ vs, v.IsReduced := by
  cases es with
  | nil =>
    rw [Engine.reduceAll]
    exact Contract.keeps_pure (by simp)
  | cons e rest =>
    rw [Engine.reduceAll]
    refine (Sound.reduce hm hscope e).bind fun v hv => ?_
    refine (Sound.reduceAll hm hscope rest).bind fun vs hvs => ?_
    exact Contract.keeps_pure fun w hw => (List.mem_cons.1 hw).elim (· ▸ hv) (hvs w)

theorem Sound.arguments (hm : m.Sound C) (hscope : scope.IsReduced) (es : List Expr) :
    ∀ a ∈ m.arguments scope es, a.Sound C := by
  cases es with
  | nil => simp [Engine.arguments]
  | cons e rest =>
    intro a ha
    have hrest := Sound.arguments hm hscope rest
    cases e with
    | assign x e l =>
      rw [Engine.arguments] at ha
      obtain rfl | ha := List.mem_cons.1 ha
      · exact Sound.reduce hm hscope e
      · exact hrest a ha
    | _ =>
      rw [Engine.arguments] at ha
      · obtain rfl | ha := List.mem_cons.1 ha
        · exact Sound.reduce hm hscope _
        · exact hrest a ha
      · simp

end

/-! ## Statements -/

section Statements

variable (m : Engine) (scope : Scope) (rest : List Expr) (s : State)

theorem run_execute_ret (e : Expr) (loc : Option Loc) :
    (m.execute scope (.ret e loc :: rest)).run s =
      ((scope, ((m.reduce scope e).run s).1.map some), ((m.reduce scope e).run s).2) := rfl

theorem run_execute_assign (x : String) (e : Expr) (loc : Option Loc) :
    (m.execute scope (.assign x e loc :: rest)).run s =
      match (m.reduce scope e).run s with
      | (.ok v, s') => (m.execute (scope.define x v) rest).run s'
      | (.error f, s') => ((scope, .error f), s') := by
  rw [execute, StateT.run_bind, run_run]
  generalize (m.reduce scope e).run s = r
  obtain ⟨_ | v, s'⟩ := r <;> rfl

theorem run_execute_call (name : String) (args : List Expr) (loc : Option Loc) :
    (m.execute scope (.call name args loc :: rest)).run s =
      match (m.perform scope name (m.arguments scope args) loc).run s with
      | (.ok (), s') => (m.execute scope rest).run s'
      | (.error f, s') => ((scope, .error f), s') := by
  rw [execute, StateT.run_bind, run_run]
  generalize (m.perform scope name (m.arguments scope args) loc).run s = r
  obtain ⟨_ | v, s'⟩ := r <;> rfl

theorem run_execute_declare (name : String) (params : List String) (defaults : Bindings Expr)
    (body : List Expr) (loc : Option Loc) :
    (m.execute scope (.declare name params defaults body loc :: rest)).run s =
      if params.dropLast.contains ellipsis then ((scope, .error (.at? .ellipsisNotLast loc)), s)
      else (m.execute scope rest).run (Eval.declare ⟨name, params, defaults, body⟩ s) := by
  rw [execute]
  split <;> rfl

end Statements

/-- Statements were run as the contract says: the variables hold values, whether or not the run
failed. -/
def Ran (C : Contract) (r : Outcome × State) : Prop :=
  r.1.1.IsReduced ∧ Ends (fun v s => C.Inv s ∧ Returned v) C.Fails (r.1.2, r.2)

/-- **Running statements** keeps the contract. -/
theorem Sound.execute (hm : m.Sound C) (body : List Expr) {scope : Scope}
    (hscope : scope.IsReduced) {s : State} (hs : C.Inv s) :
    Ran C ((m.execute scope body).run s) := by
  induction body generalizing scope s with
  | nil => exact ⟨hscope, hs, by simp [Returned]⟩
  | cons e rest ih =>
    cases e with
    | ret e l =>
      have h := Sound.reduce hm hscope e s hs
      rw [run_execute_ret]
      generalize (m.reduce scope e).run s = r at h
      obtain ⟨_ | v, s'⟩ := r
      · exact ⟨hscope, h⟩
      · exact ⟨hscope, h.1, by simpa [Returned] using h.2⟩
    | assign x e l =>
      have h := Sound.reduce hm hscope e s hs
      rw [run_execute_assign]
      generalize (m.reduce scope e).run s = r at h
      obtain ⟨_ | v, s'⟩ := r
      · exact ⟨hscope, h⟩
      · exact ih (hscope.define x h.2) h.1
    | declare name params defaults body l =>
      rw [run_execute_declare]
      split
      · exact ⟨hscope, C.fault _ hs⟩
      · exact ih hscope (C.declare _ hs)
    | call name args l =>
      have h := keeps_perform hm hscope (hm.arguments hscope args) name l s hs
      rw [run_execute_call]
      generalize (m.perform scope name (m.arguments scope args) l).run s = r at h
      obtain ⟨_ | v, s'⟩ := r
      · exact ⟨hscope, h⟩
      · exact ih hscope h.1
    | _ => exact ⟨hscope, C.fault _ hs⟩

theorem Sound.run (hm : m.Sound C) (hscope : scope.IsReduced) (body : List Expr) :
    C.Keeps (m.run scope body) Returned :=
  fun _ hs => (hm.execute body hscope hs).2

end Engine

/-! ## The depth of calls -/

/-- **Evaluation keeps every contract**, if what starts over from the global scope does. -/
theorem sound_engine (limit : Int) {restart : Scope → Expr → Eval Expr}
    (h : RestartSound C restart) (n : Nat) : (engine limit restart n).Sound C := by
  induction n with
  | zero => exact ⟨fun _ => nofun, h⟩
  | succ n ih =>
    refine ⟨fun inner hinner => ?_, h⟩
    cases hinner
    exact ⟨fun scope e hscope => ih.reduce hscope e, fun scope body hscope => ih.run hscope body⟩

end AchievementLang

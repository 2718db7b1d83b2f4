import AchievementLang.Compilation
import AchievementLang.Proofs.Eval.Engine
import AchievementLang.Proofs.Eval.Table
import AchievementLang.Proofs.Grammar.Connectives

/-!
# Connectives in what is evaluated

Evaluation makes no connective of its own, and the value of a connective joins as many conditions as
the connective did. So if every connective in a script joins several conditions, this holds of all
that is evaluated, of the functions that have been declared, and of all that has been compiled for
what is registered (`State.Joins`). Since scripts are parsed, it always holds
(`Script.joins_of_compileText`).
-/

namespace AchievementLang

open Eval AchievementLang.Expr

/-! ## Functions and what is registered -/

/-- Every connective in the defaults and in the body of the function joins several conditions. -/
structure Function.Joins (f : Function) : Prop where
  defaults : ∀ x e, f.defaults.get? x = some e → e.JoinsThroughout
  body : ∀ d, f = .declared d → ∀ e ∈ d.body, e.JoinsThroughout

/-- The trigger has been compiled from a condition in which connectives join several others. -/
def Achievement.Joins (a : Achievement) : Prop :=
  ∃ (t : FunctionTable) (e : Expr), e.JoinsThroughout ∧ Compile.trigger t e = .ok a.trigger

/-- The text is that of a condition in which connectives join several others. -/
def IsJoinedText (text : String) : Prop :=
  ∃ (t : FunctionTable) (e : Expr), e.JoinsThroughout ∧ Compile.conditionText t e = .ok text

/-- The texts of the three conditions of the leaderboard are such. -/
def Leaderboard.Joins (l : Leaderboard) : Prop :=
  ∀ text ∈ [l.definition.start, l.definition.cancel, l.definition.submit], IsJoinedText text

/-- Everywhere in the state connectives join several conditions. -/
structure State.Joins (s : State) : Prop where
  functions : ∀ name f, s.functions.get? name = some f → f.Joins
  achievements : ∀ r ∈ s.registry, ∀ a ∈ r.achievements, a.Joins
  leaderboards : ∀ r ∈ s.registry, ∀ l ∈ r.leaderboards, l.Joins

theorem Function.joins_of_isBuiltin {f : Function} (h : f.isBuiltin = true) : f.Joins := by
  refine ⟨fun x e hx => ?_, fun d hd => by rw [hd] at h; cases h⟩
  have hdefaults : ∀ d ∈ f.defaults, d.2.JoinsThroughout := by
    cases f with
    | achievement | leaderboard => exact List.forall_mem_singleton.2 trivial
    | declared => cases h
    | _ => simp [Function.defaults]
  exact hdefaults _ (Bindings.mem_of_get? hx)

theorem State.joins_initial : State.Joins {} := by
  refine ⟨fun name f h => Function.joins_of_isBuiltin (FunctionTable.isBuiltin_of_get?_initial h),
    fun r hr => ?_, fun r hr => ?_⟩
  all_goals
    cases hr
    simp

theorem State.Joins.declare {s : State} (h : s.Joins) {d : Declaration}
    (hd : (Function.declared d).Joins) : (Eval.declare d s).Joins := by
  refine ⟨fun name f hf => ?_, h.achievements, h.leaderboards⟩
  rw [Eval.declare, Bindings.get?_set] at hf
  split at hf
  · cases hf
    exact hd
  · exact h.functions name f hf

namespace Eval

variable {α β : Type} {Q : α → Prop}

/-- The evaluation keeps connectives of several conditions, and its value satisfies `Q`. -/
def KeepsJoins (x : Eval α) (Q : α → Prop) : Prop := Upholds State.Joins (fun _ _ => True) x Q

theorem keepsJoins_fail (cause : Cause) (loc : Option Loc) : KeepsJoins (fail cause loc) Q :=
  meets_fail fun _ _ => trivial

theorem keepsJoins_ofExcept {x : Except Failure α} (h : ∀ a, x = .ok a → Q a) :
    KeepsJoins (ofExcept x) Q := by
  intro s hs
  cases x with
  | error f => exact trivial
  | ok a => exact ⟨hs, h a rfl⟩

theorem keepsJoins_function? (name : String) :
    KeepsJoins (function? name) fun f => ∀ g ∈ f, g.Joins :=
  fun _ hs => ⟨hs, fun g => hs.functions name g⟩

theorem keepsJoins_record (e : Event) : KeepsJoins (record e) fun _ => True :=
  fun _ hs => ⟨⟨hs.functions, hs.achievements, hs.leaderboards⟩, trivial⟩

theorem keepsJoins_compiled (compile : FunctionTable → Except Failure α) :
    KeepsJoins (compiled compile) fun a => ∃ t, compile t = .ok a := by
  intro s hs
  rw [run_compiled]
  cases h : compile s.functions with
  | error f => exact trivial
  | ok a => exact ⟨hs, s.functions, h⟩

theorem keepsJoins_conditionText {e : Expr} (he : e.JoinsThroughout) :
    KeepsJoins (conditionText e) IsJoinedText := by
  refine (keepsJoins_record _).bind fun _ _ => ?_
  refine (keepsJoins_compiled _).bind fun text ⟨t, ht⟩ => ?_
  exact (keepsJoins_record _).bind fun _ _ => upholds_pure ⟨t, e, he, ht⟩

theorem keepsJoins_registerAchievement {a : Achievement} (ha : a.Joins) :
    KeepsJoins (register fun r => { r with achievements := r.achievements ++ [a] })
      fun _ => True := by
  rintro ⟨functions, _ | r, events⟩ hs
  · exact trivial
  · refine ⟨⟨hs.functions, ?_, ?_⟩, trivial⟩
    · rintro _ ⟨⟩
      exact List.forall_mem_append.2 ⟨hs.achievements r rfl, List.forall_mem_singleton.2 ha⟩
    · rintro _ ⟨⟩
      exact hs.leaderboards r rfl

theorem keepsJoins_registerLeaderboard {l : Leaderboard} (hl : l.Joins) :
    KeepsJoins (register fun r => { r with leaderboards := r.leaderboards ++ [l] })
      fun _ => True := by
  rintro ⟨functions, _ | r, events⟩ hs
  · exact trivial
  · refine ⟨⟨hs.functions, ?_, ?_⟩, trivial⟩
    · rintro _ ⟨⟩
      exact hs.achievements r rfl
    · rintro _ ⟨⟩
      exact List.forall_mem_append.2 ⟨hs.leaderboards r rfl, List.forall_mem_singleton.2 hl⟩

end Eval

/-! ## Binding -/

/-- The argument joins several conditions everywhere, as it is and evaluated. -/
structure Argument.Joins (a : Argument) : Prop where
  source : a.source.JoinsThroughout
  reduce : KeepsJoins a.reduce JoinsThroughout

namespace Activation

/-- So do the function that is called, the variables and the surplus arguments. -/
structure Joins (a : Activation) : Prop where
  function : a.function.Joins
  scope : a.scope.Holds JoinsThroughout
  surplus : ∀ b ∈ a.surplus, b.Joins

/-- What has been bound joins several conditions. -/
structure Progress.Joins (p : Progress) : Prop where
  scope : p.scope.Holds JoinsThroughout
  surplus : ∀ b ∈ p.surplus, b.Joins

variable {f : Function} {loc : Option Loc} {reduce : Scope → Expr → Eval Expr}

theorem keepsJoins_bindArgument {p : Progress} {b : Argument} (hp : p.Joins) (hb : b.Joins) :
    KeepsJoins (bindArgument f p b) Progress.Joins := by
  unfold bindArgument
  split
  next x _ =>
    unfold bindNamed
    split
    · exact keepsJoins_fail _ _
    split
    · exact keepsJoins_fail _ _
    exact hb.reduce.bind fun v hv => upholds_pure ⟨hp.scope.define x hv, hp.surplus⟩
  next =>
    unfold bindNext
    split
    · exact keepsJoins_fail _ _
    split
    next x rest _ =>
      exact hb.reduce.bind fun v hv => upholds_pure ⟨hp.scope.define x hv, hp.surplus⟩
    next =>
      split
      · exact upholds_pure ⟨hp.scope, List.forall_mem_append.2 ⟨hp.surplus, by simpa using hb⟩⟩
      · exact keepsJoins_fail _ _

theorem keepsJoins_bindDefault (hreduce : ∀ (scope : Scope) e, scope.Holds JoinsThroughout →
    e.JoinsThroughout → KeepsJoins (reduce scope e) JoinsThroughout) (hf : f.Joins) {scope : Scope}
    (h : scope.Holds JoinsThroughout) (x : String) :
    KeepsJoins (bindDefault f reduce loc scope x) (Scope.Holds JoinsThroughout) := by
  unfold bindDefault
  split
  · exact upholds_pure h
  split
  · exact keepsJoins_fail _ _
  next e he =>
    exact (hreduce scope e h (hf.defaults x e he)).bind fun v hv => upholds_pure (h.define x hv)

theorem keepsJoins_bind (hreduce : ∀ (scope : Scope) e, scope.Holds JoinsThroughout →
    e.JoinsThroughout → KeepsJoins (reduce scope e) JoinsThroughout) (hf : f.Joins) {caller : Scope}
    (h : caller.Holds JoinsThroughout) {args : List Argument} (hargs : ∀ a ∈ args, a.Joins) :
    KeepsJoins (bind f reduce caller loc args) Joins := by
  have hstart : Progress.Joins { scope := caller.callee, next := f.fixed } := ⟨h.callee, by simp⟩
  refine (upholds_foldlM hstart fun a ha p hp => keepsJoins_bindArgument hp (hargs a ha)).bind
    fun p hp => ?_
  refine (upholds_foldlM hp.scope fun x _ s hs => keepsJoins_bindDefault hreduce hf hs x).bind
    fun s hs => upholds_pure ⟨hf, ?_, hp.surplus⟩
  unfold bindSurplus
  split
  · refine hs.define _ ((joinThroughout_iff _).2 fun e he => ?_)
    obtain ⟨b, hb, rfl⟩ := List.mem_map.1 he
    exact (hp.surplus b hb).source
  · exact hs

/-! ## Functions of the language -/

section Language

variable {a : Activation}

theorem keepsJoins_param (h : a.Joins) (x : String) : KeepsJoins (a.param x) JoinsThroughout := by
  unfold param
  split
  next v hv => exact upholds_pure (h.scope a.scope.frame List.mem_cons_self x v hv)
  next => exact keepsJoins_fail _ _

theorem keepsJoins_string (h : a.Joins) (x : String) : KeepsJoins (a.string x) fun _ => True := by
  refine (keepsJoins_param h x).bind fun e _ => ?_
  split
  · exact upholds_pure trivial
  · exact keepsJoins_fail _ _

theorem keepsJoins_integer (h : a.Joins) (x : String) : KeepsJoins (a.integer x) fun _ => True := by
  refine (keepsJoins_param h x).bind fun e _ => ?_
  split
  · exact upholds_pure trivial
  · exact keepsJoins_fail _ _

theorem joinsThroughout_again {args : List Expr} (h : ∀ e ∈ args, e.JoinsThroughout) :
    (a.again args).JoinsThroughout := (joinThroughout_iff _).2 h

theorem keepsJoins_accessor (h : a.Joins) : KeepsJoins a.accessor JoinsThroughout := by
  refine (keepsJoins_integer h "address").bind fun ⟨n, l⟩ _ => ?_
  dsimp only
  split
  · exact upholds_pure (joinsThroughout_again (List.forall_mem_singleton.2 trivial))
  · exact keepsJoins_fail _ _

theorem keepsJoins_bit (h : a.Joins) : KeepsJoins a.bit JoinsThroughout := by
  refine (keepsJoins_integer h "index").bind fun ⟨n, l⟩ _ => ?_
  dsimp only
  split
  · refine (keepsJoins_integer h "address").bind fun ⟨n, l⟩ _ => ?_
    exact upholds_pure ⟨trivial, trivial⟩
  · exact keepsJoins_fail _ _

theorem keepsJoins_prev (h : a.Joins) : KeepsJoins a.prev JoinsThroughout := by
  refine (keepsJoins_param h "accessor").bind fun e he => ?_
  split
  next name args l =>
    refine (keepsJoins_function? name).bind fun f _ => ?_
    split
    · exact upholds_pure (joinsThroughout_again (List.forall_mem_singleton.2 he))
    · exact keepsJoins_fail _ _
  next => exact keepsJoins_fail _ _

theorem keepsJoins_repeated (h : a.Joins) : KeepsJoins a.repeated JoinsThroughout := by
  refine (keepsJoins_integer h "count").bind fun ⟨n, l⟩ _ => ?_
  dsimp only
  split
  · exact keepsJoins_fail _ _
  · refine (keepsJoins_param h "comparison").bind fun e he => upholds_pure ?_
    exact joinsThroughout_again (List.forall_mem_cons.2 ⟨trivial, List.forall_mem_singleton.2 he⟩)

theorem keepsJoins_around (h : a.Joins) : KeepsJoins a.around JoinsThroughout :=
  (keepsJoins_param h "comparison").bind fun _ he =>
    upholds_pure (joinsThroughout_again (List.forall_mem_singleton.2 he))

theorem keepsJoins_reducedSurplus (h : a.Joins) :
    KeepsJoins a.reducedSurplus fun vs => ∀ v ∈ vs, v.JoinsThroughout := by
  refine (upholds_mapM fun b hb => (h.surplus b hb).reduce).mono fun vs hvs v hv => ?_
  obtain ⟨i, hi, rfl⟩ := List.getElem_of_mem hv
  exact (List.forall₂_iff_get.1 hvs).2 i (hvs.length_eq ▸ hi) hi

theorem keepsJoins_maxOf (h : a.Joins) : KeepsJoins a.maxOf JoinsThroughout := by
  unfold maxOf
  split
  · exact keepsJoins_fail _ _
  · exact (keepsJoins_reducedSurplus h).bind fun vs hvs => upholds_pure (joinsThroughout_again hvs)

/-! ## What is registered -/

theorem keepsJoins_registerAchievement (h : a.Joins) :
    KeepsJoins a.registerAchievement fun _ => True := by
  refine (keepsJoins_string h "title").bind fun ⟨title, _⟩ _ => ?_
  refine (keepsJoins_string h "description").bind fun ⟨description, _⟩ _ => ?_
  refine (keepsJoins_integer h "points").bind fun ⟨points, loc⟩ _ => ?_
  dsimp only
  split
  · exact (keepsJoins_fail (Q := fun _ => False) _ _).bind fun _ => False.elim
  · refine (keepsJoins_param h "trigger").bind fun e he => ?_
    refine (keepsJoins_record _).bind fun _ _ => ?_
    refine (keepsJoins_compiled _).bind fun trigger ⟨t, ht⟩ => ?_
    refine (keepsJoins_integer h "id").bind fun ⟨id, _⟩ _ => ?_
    exact (Eval.keepsJoins_registerAchievement ⟨t, e, he, ht⟩).bind fun _ _ => keepsJoins_record _

theorem keepsJoins_alternatives (e : Expr) (he : e.JoinsThroughout) :
    KeepsJoins (alternatives e) fun _ => True := by
  unfold alternatives
  split
  next name args l =>
    refine (keepsJoins_function? name).bind fun f _ => ?_
    split <;> exact upholds_pure trivial
  next => exact upholds_pure trivial

theorem keepsJoins_valueText (e : Expr) : KeepsJoins (Eval.valueText e) fun _ => True := by
  refine (keepsJoins_record _).bind fun _ _ => ?_
  refine (keepsJoins_compiled _).bind fun text _ => ?_
  exact (keepsJoins_record _).bind fun _ _ => upholds_pure trivial

theorem keepsJoins_registerLeaderboard (h : a.Joins) :
    KeepsJoins a.registerLeaderboard fun _ => True := by
  refine (keepsJoins_string h "title").bind fun ⟨title, _⟩ _ => ?_
  refine (keepsJoins_string h "description").bind fun ⟨description, _⟩ _ => ?_
  refine (keepsJoins_param h "start").bind fun e he => ?_
  refine (keepsJoins_conditionText he).bind fun start hstart => ?_
  refine (keepsJoins_param h "cancel").bind fun e he => ?_
  refine (keepsJoins_conditionText he).bind fun cancel hcancel => ?_
  refine (keepsJoins_param h "submit").bind fun e he => ?_
  refine (keepsJoins_conditionText he).bind fun submit hsubmit => ?_
  refine (keepsJoins_param h "value").bind fun e he => ?_
  refine (keepsJoins_alternatives e he).bind fun es _ => ?_
  refine (upholds_mapM fun x _ => keepsJoins_valueText x).bind fun texts _ => ?_
  refine (keepsJoins_string h "format").bind fun ⟨format, _⟩ _ => ?_
  dsimp only
  split
  · exact keepsJoins_fail _ _
  · refine (Eval.keepsJoins_registerLeaderboard fun text htext => ?_).bind fun _ _ =>
      keepsJoins_record _
    simp only [List.mem_cons, List.not_mem_nil, or_false] at htext
    obtain rfl | rfl | rfl := htext
    exacts [hstart, hcancel, hsubmit]

end Language

end Activation

/-! ## Evaluation -/

/-- The value that statements return joins several conditions, if there is any. -/
def ReturnedJoins (v : Option Expr) : Prop := ∀ e ∈ v, e.JoinsThroughout

/-- Evaluation one call deeper keeps connectives of several conditions. -/
structure Inner.Joins (inner : Inner) : Prop where
  reduce : ∀ (scope : Scope) e, scope.Holds JoinsThroughout → e.JoinsThroughout →
    KeepsJoins (inner.reduce scope e) JoinsThroughout
  run : ∀ (scope : Scope) body, scope.Holds JoinsThroughout → (∀ e ∈ body, e.JoinsThroughout) →
    KeepsJoins (inner.run scope body) ReturnedJoins

/-- All that an engine leaves to others keeps connectives of several conditions. -/
structure Engine.Joins (m : Engine) : Prop where
  inner : ∀ inner ∈ m.inner, inner.Joins
  restart : ∀ (scope : Scope) e, scope.Holds JoinsThroughout → e.JoinsThroughout →
    KeepsJoins (m.restart scope e) JoinsThroughout

namespace Activation

variable {m : Engine} {inner : Inner} {a : Activation}

theorem keepsJoins_runDeclared (hinner : inner.Joins) (ha : a.Joins) {d : Declaration}
    (hd : ∀ e ∈ d.body, e.JoinsThroughout) :
    KeepsJoins (a.runDeclared inner d) ReturnedJoins := by
  unfold runDeclared
  split
  · refine (keepsJoins_reducedSurplus ha).bind fun vs hvs => ?_
    exact hinner.run _ _ (ha.scope.define _ ((joinThroughout_iff vs).2 hvs)) hd
  · exact hinner.run _ _ ha.scope hd

/-- The value of a call of any function. -/
theorem keepsJoins_reduce (hm : m.Joins) (hinner : inner.Joins) (ha : a.Joins) :
    KeepsJoins (a.reduce m inner) JoinsThroughout := by
  unfold reduce
  split
  next => exact keepsJoins_accessor ha
  next => exact (keepsJoins_bit ha).bind fun e he => hm.restart _ e ha.scope.root he
  next => exact keepsJoins_prev ha
  next => exact keepsJoins_around ha
  next => exact keepsJoins_around ha
  next => exact keepsJoins_around ha
  next => exact keepsJoins_repeated ha
  next => exact upholds_pure (joinsThroughout_again (by simp))
  next => exact keepsJoins_maxOf ha
  next => exact keepsJoins_fail _ _
  next => exact keepsJoins_fail _ _
  next d hf =>
    refine (keepsJoins_runDeclared hinner ha (ha.function.body d hf)).bind fun v hv => ?_
    split
    · exact upholds_pure (hv _ rfl)
    · exact keepsJoins_fail _ _

/-- The effect of a call of any function. -/
theorem keepsJoins_evaluate (hm : m.Joins) (hinner : inner.Joins) (ha : a.Joins) :
    KeepsJoins (a.evaluate m inner) fun _ => True := by
  unfold evaluate
  split
  next => exact keepsJoins_registerAchievement ha
  next => exact keepsJoins_registerLeaderboard ha
  next d hf =>
    exact (keepsJoins_runDeclared hinner ha (ha.function.body d hf)).bind fun _ _ =>
      upholds_pure trivial
  next => exact (keepsJoins_reduce hm hinner ha).bind fun _ _ => upholds_pure trivial

end Activation

namespace Engine

variable {m : Engine} {scope : Scope} {args : List Argument}

theorem keepsJoins_enter (hm : m.Joins) (hscope : scope.Holds JoinsThroughout)
    (hargs : ∀ a ∈ args, a.Joins) (name : String) (loc : Option Loc) :
    KeepsJoins (m.enter scope name args loc) fun r => r.1.Joins ∧ r.2.Joins := by
  refine Upholds.bind (S := Function.Joins) ?_ fun f hf => ?_
  · refine (keepsJoins_function? name).bind fun f hf => ?_
    split
    · exact upholds_pure (hf _ rfl)
    · exact keepsJoins_fail _ _
  · split
    · exact keepsJoins_fail _ _
    next inner hinner =>
      have hinner := hm.inner inner hinner
      refine (Activation.keepsJoins_bind hinner.reduce hf hscope hargs).bind fun a ha => ?_
      exact upholds_pure ⟨hinner, ha⟩

theorem keepsJoins_call (hm : m.Joins) (hscope : scope.Holds JoinsThroughout)
    (hargs : ∀ a ∈ args, a.Joins) (name : String) (loc : Option Loc) :
    KeepsJoins (m.call scope name args loc) JoinsThroughout := by
  refine (keepsJoins_enter hm hscope hargs name loc).bind fun ⟨inner, a⟩ ⟨hinner, ha⟩ => ?_
  exact (keepsJoins_record _).bind fun _ _ => Activation.keepsJoins_reduce hm hinner ha

theorem keepsJoins_perform (hm : m.Joins) (hscope : scope.Holds JoinsThroughout)
    (hargs : ∀ a ∈ args, a.Joins) (name : String) (loc : Option Loc) :
    KeepsJoins (m.perform scope name args loc) fun _ => True := by
  refine (keepsJoins_enter hm hscope hargs name loc).bind fun ⟨inner, a⟩ ⟨hinner, ha⟩ => ?_
  exact (keepsJoins_record _).bind fun _ _ => Activation.keepsJoins_evaluate hm hinner ha

theorem joinsThroughout_combine {op : Operator} {a b v : Expr} {loc : Option Loc}
    (ha : a.JoinsThroughout) (hb : b.JoinsThroughout) (h : Expr.combine op a b loc = .ok v) :
    v.JoinsThroughout := by
  unfold Expr.combine at h
  split at h
  · split at h
    · cases h
      trivial
    · cases h
  · unfold combineOthers at h
    split at h
    · split at h
      · cases h
        trivial
      all_goals cases h
    · cases h
      exact ⟨ha, hb⟩

mutual

/-- **The value of an expression** joins several conditions, if the expression does. -/
theorem Joins.reduce (hm : m.Joins) (hscope : scope.Holds JoinsThroughout) (e : Expr)
    (he : e.JoinsThroughout) : KeepsJoins (m.reduce scope e) JoinsThroughout := by
  cases e with
  | string s l | integer n l =>
    rw [Engine.reduce]
    exact upholds_pure trivial
  | var x l =>
    rw [Engine.reduce]
    split
    next v hv => exact upholds_pure (hscope.get? hv)
    next => exact keepsJoins_fail _ _
  | call name args l =>
    rw [Engine.reduce]
    exact keepsJoins_call hm hscope (Joins.arguments hm hscope args he) name l
  | compare r a b l =>
    rw [Engine.reduce]
    refine (Joins.reduce hm hscope a he.1).bind fun a' ha => ?_
    refine (Joins.reduce hm hscope b he.2).bind fun b' hb => ?_
    exact upholds_pure ⟨ha, hb⟩
  | math op a b l =>
    rw [Engine.reduce]
    refine (Joins.reduce hm hscope a he.1).bind fun a' ha => ?_
    refine (Joins.reduce hm hscope b he.2).bind fun b' hb => ?_
    refine keepsJoins_ofExcept fun v hv => ?_
    cases hcombine : Expr.combine op a' b' l with
    | error f =>
      rw [hcombine] at hv
      cases hv
    | ok w =>
      rw [hcombine] at hv
      cases hv
      exact joinsThroughout_combine ha hb hcombine
  | not e l =>
    rw [Engine.reduce]
    exact (Joins.reduce hm hscope e he).bind fun e' he' => upholds_pure he'
  | logic op es l =>
    rw [Engine.reduce]
    refine (Joins.reduceAll hm hscope es he.2).bind fun vs hvs => upholds_pure ?_
    exact ⟨hvs.1 ▸ he.1, (joinThroughout_iff vs).2 hvs.2⟩
  | array es l =>
    rw [Engine.reduce]
    refine (Joins.reduceAll hm hscope es he).bind fun vs hvs => upholds_pure ?_
    exact (joinThroughout_iff vs).2 hvs.2
  | assign | ret | declare =>
    rw [Engine.reduce]
    exact keepsJoins_fail _ _

theorem Joins.reduceAll (hm : m.Joins) (hscope : scope.Holds JoinsThroughout) (es : List Expr)
    (hes : JoinThroughout es) :
    KeepsJoins (m.reduceAll scope es)
      fun vs => es.length = vs.length ∧ ∀ v ∈ vs, v.JoinsThroughout := by
  cases es with
  | nil =>
    rw [Engine.reduceAll]
    exact upholds_pure ⟨rfl, by simp⟩
  | cons e rest =>
    rw [Engine.reduceAll]
    refine (Joins.reduce hm hscope e hes.1).bind fun v hv => ?_
    refine (Joins.reduceAll hm hscope rest hes.2).bind fun vs hvs => upholds_pure ?_
    exact ⟨by simp [hvs.1], List.forall_mem_cons.2 ⟨hv, hvs.2⟩⟩

theorem Joins.arguments (hm : m.Joins) (hscope : scope.Holds JoinsThroughout) (es : List Expr)
    (hes : JoinThroughout es) : ∀ a ∈ m.arguments scope es, a.Joins := by
  cases es with
  | nil => simp [Engine.arguments]
  | cons e rest =>
    have hrest := Joins.arguments hm hscope rest hes.2
    cases e with
    | assign x e l =>
      rw [Engine.arguments]
      exact List.forall_mem_cons.2 ⟨⟨hes.1, Joins.reduce hm hscope e hes.1⟩, hrest⟩
    | _ =>
      rw [Engine.arguments]
      · exact List.forall_mem_cons.2 ⟨⟨hes.1, Joins.reduce hm hscope _ hes.1⟩, hrest⟩
      · simp

end

/-! ## Statements -/

/-- Statements were run: the variables join several conditions, and so does all that there is in the
state and in the value, unless the run failed. -/
def RanJoins (r : Outcome × State) : Prop :=
  r.1.1.Holds JoinsThroughout ∧
    Ends (fun v s => s.Joins ∧ ReturnedJoins v) (fun _ _ => True) (r.1.2, r.2)

theorem Joins.execute (hm : m.Joins) (body : List Expr) (hbody : ∀ e ∈ body, e.JoinsThroughout)
    {scope : Scope} (hscope : scope.Holds JoinsThroughout) {s : State} (hs : s.Joins) :
    RanJoins ((m.execute scope body).run s) := by
  induction body generalizing scope s with
  | nil => exact ⟨hscope, hs, by simp [ReturnedJoins]⟩
  | cons e rest ih =>
    obtain ⟨he, hrest⟩ := List.forall_mem_cons.1 hbody
    have ih {scope : Scope} (hscope : scope.Holds JoinsThroughout) {s : State} (hs : s.Joins) :=
      ih hrest hscope hs
    cases e with
    | ret e l =>
      have h := Joins.reduce hm hscope e he s hs
      rw [run_execute_ret]
      generalize (m.reduce scope e).run s = r at h
      obtain ⟨_ | v, s'⟩ := r
      · exact ⟨hscope, trivial⟩
      · exact ⟨hscope, h.1, by simpa [ReturnedJoins] using h.2⟩
    | assign x e l =>
      have h := Joins.reduce hm hscope e he s hs
      rw [run_execute_assign]
      generalize (m.reduce scope e).run s = r at h
      obtain ⟨_ | v, s'⟩ := r
      · exact ⟨hscope, trivial⟩
      · exact ih (hscope.define x h.2) h.1
    | declare name params defaults body l =>
      rw [run_execute_declare]
      split
      · exact ⟨hscope, trivial⟩
      · refine ih hscope (hs.declare ⟨fun x e hx => ?_, ?_⟩)
        · exact (defaultsJoin_iff defaults).1 he.1 _ (Bindings.mem_of_get? hx)
        · rintro d ⟨⟩
          exact (joinThroughout_iff body).1 he.2
    | call name args l =>
      have h := keepsJoins_perform hm hscope (Joins.arguments hm hscope args he) name l s hs
      rw [run_execute_call]
      generalize (m.perform scope name (m.arguments scope args) l).run s = r at h
      obtain ⟨_ | v, s'⟩ := r
      · exact ⟨hscope, trivial⟩
      · exact ih hscope h.1
    | _ => exact ⟨hscope, trivial⟩

end Engine

/-! ## The depth of calls -/

theorem joins_engine (limit : Int) {restart : Scope → Expr → Eval Expr}
    (h : ∀ (scope : Scope) e, scope.Holds JoinsThroughout → e.JoinsThroughout →
      KeepsJoins (restart scope e) JoinsThroughout) (n : Nat) :
    (engine limit restart n).Joins := by
  induction n with
  | zero => exact ⟨fun _ => nofun, h⟩
  | succ n ih =>
    refine ⟨fun inner hinner => ?_, h⟩
    cases hinner
    exact ⟨fun scope e hscope he => Engine.Joins.reduce ih hscope e he,
      fun scope body hscope hbody s hs => (Engine.Joins.execute ih body hbody hscope hs).2⟩

theorem keepsJoins_restarting (limit : Int) (n : Nat) (scope : Scope) (e : Expr)
    (hscope : scope.Holds JoinsThroughout) (he : e.JoinsThroughout) :
    KeepsJoins (restarting limit n scope e) JoinsThroughout := by
  induction n generalizing scope e with
  | zero => exact fun _ _ => trivial
  | succ n ih => exact Engine.Joins.reduce (joins_engine limit ih limit.toNat) hscope e he

/-! ## Scripts -/

namespace Script

variable {limit : Int} {text : String} {c : Compilation}

theorem joinsThroughout_of_parse {s : Script} (h : parse text = .ok s) :
    ∀ e ∈ s.statements, e.JoinsThroughout := by
  unfold parse at h
  split at h
  · cases h
  next statements hstatements =>
    split at h
    · cases h
    · cases h
      exact Grammar.joinsThroughout_of_parseStatements hstatements

/-- **In all that has been compiled of a script, connectives join several conditions.** -/
theorem joins_of_compileText (h : compileText limit text = .ok c) :
    (∀ a ∈ c.achievements, a.Joins) ∧ ∀ l ∈ c.leaderboards, l.Joins := by
  unfold compileText at h
  split at h
  · cases h
  next s hparse =>
    have hran : Engine.RanJoins ((({} : Scope).execute limit s.statements).run {}) :=
      Engine.Joins.execute (joins_engine limit (keepsJoins_restarting limit restartLimit) _)
        s.statements (joinsThroughout_of_parse hparse) Scope.holds_empty State.joins_initial
    unfold compile at h
    split at h
    · cases h
    · generalize (({} : Scope).execute limit s.statements).run {} = r at h hran
      obtain ⟨⟨scope, _ | v⟩, functions, registry, events⟩ := r
      · cases h
      · cases h
        obtain ⟨-, hstate, -⟩ := hran
        cases registry with
        | none => simp
        | some r => exact ⟨hstate.achievements r rfl, hstate.leaderboards r rfl⟩

end Script

end AchievementLang

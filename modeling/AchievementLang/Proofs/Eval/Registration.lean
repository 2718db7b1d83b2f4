import AchievementLang.Eval.Language
import AchievementLang.Proofs.Compile.Breakdown
import AchievementLang.Proofs.Eval.Contract

/-!
# What is registered

`achievement` and `leaderboard` register one thing each, whose texts are those of expressions that
have been compiled (`meets_registerAchievement`, `meets_registerLeaderboard`). If they fail, either
that is an error of the script, or the last event is the compilation that broke down (`Stops`).
-/

namespace AchievementLang

open Eval

/-! ## Compilations -/

namespace Source

variable {t : FunctionTable} {source : Source} {f f' : Failure}

/-- The expression that is compiled. -/
def expr : Source → Expr
  | trigger e | condition e | value e => e

/-- The compilation fails. -/
def Fails (t : FunctionTable) (f : Failure) : Source → Prop
  | trigger e => Compile.trigger t e = .error f
  | condition e => Compile.conditionText t e = .error f
  | value e => Compile.valueText t e = .error f

/-- A multiplier of the value is too large to be written. -/
def HasLarge (t : FunctionTable) : Source → Prop
  | value e => Compile.HasLarge t e
  | _ => False

theorem Fails.unique (h : source.Fails t f) (h' : source.Fails t f') : f = f' := by
  cases source <;> exact Except.error.inj (h.symm.trans h')

theorem HasLarge.fails (h : source.HasLarge t) : source.Fails t (.breakdown .tooLarge) := by
  cases source with
  | value e => exact Compile.valueText_of_hasLarge h
  | _ => cases h

/-- What breaks a compilation down is a stale operand, or a multiplier that is too large. -/
theorem Fails.cases (h : source.Fails t f) (ht : t.Sound) (he : source.expr.IsReduced) :
    (∃ g, f = .fault g) ∨ (f = .breakdown .staleCall ∧ source.expr.HasStale t) ∨
      (f = .breakdown .tooLarge ∧ source.HasLarge t) := by
  cases source with
  | trigger e => exact (Compile.trigger_eq_error ht he h).imp_right .inl
  | condition e =>
    simp only [Fails, Compile.conditionText] at h
    cases hrows : Compile.conditionRows t false e with
    | ok rows =>
      rw [hrows] at h
      cases h
    | error g =>
      rw [hrows] at h
      cases h
      exact (Compile.conditionRows_eq_error ht false e he hrows).imp_right .inl
  | value e =>
    obtain (h | h) | h := Compile.valueText_eq_error ht he h
    exacts [.inl h, .inr (.inl h), .inr (.inr h)]

end Source

/-- The trigger of the achievement was compiled from an expression, and it earns no negative
points. -/
def Achievement.IsCompiled (a : Achievement) : Prop :=
  0 ≤ a.points ∧ ∃ (t : FunctionTable) (e : Expr), t.Sound ∧ e.IsReduced ∧
    Compile.trigger t e = .ok a.trigger

/-- The texts of the definition were compiled from expressions. The value has an alternative. -/
structure Wire.Definition.IsCompiled (t : FunctionTable) (d : Wire.Definition) : Prop where
  start : ∃ e, e.IsReduced ∧ Compile.conditionText t e = .ok d.start
  cancel : ∃ e, e.IsReduced ∧ Compile.conditionText t e = .ok d.cancel
  submit : ∃ e, e.IsReduced ∧ Compile.conditionText t e = .ok d.submit
  value : ∃ es texts, es ≠ [] ∧
    List.Forall₂ (fun e text => e.IsReduced ∧ Compile.valueText t e = .ok text) es texts ∧
    d.value = "$".intercalate texts

/-- All that has been registered was compiled. -/
structure Registry.IsCompiled (r : Registry) : Prop where
  achievements : ∀ a ∈ r.achievements, a.IsCompiled
  leaderboards : ∀ l ∈ r.leaderboards, ∃ t : FunctionTable, t.Sound ∧ l.definition.IsCompiled t

namespace Registry

variable {r : Registry} {t : FunctionTable}

theorem IsCompiled.achievement (h : r.IsCompiled) {a : Achievement} (ha : a.IsCompiled) :
    IsCompiled { r with achievements := r.achievements ++ [a] } := by
  refine ⟨fun b hb => ?_, h.leaderboards⟩
  obtain hb | hb := List.mem_append.1 hb
  · exact h.achievements b hb
  · rwa [List.mem_singleton.1 hb]

theorem IsCompiled.leaderboard (h : r.IsCompiled) (ht : t.Sound) {l : Leaderboard}
    (hl : l.definition.IsCompiled t) :
    IsCompiled { r with leaderboards := r.leaderboards ++ [l] } := by
  refine ⟨h.achievements, fun b hb => ?_⟩
  obtain hb | hb := List.mem_append.1 hb
  · exact h.leaderboards b hb
  · rw [List.mem_singleton.1 hb]
    exact ⟨t, ht, hl⟩

end Registry

/-! ## States -/

namespace State

/-- What is being compiled. -/
def compiling? (s : State) : Option Source :=
  match s.events with
  | .compiling source :: _ => some source
  | _ => none

/-- There are these functions and this has been registered, and that is being compiled. -/
structure At (t : FunctionTable) (r : Registry) (o : Option Source) (s : State) : Prop where
  functions : s.functions = t
  registry : s.registry = some r
  compiling : s.compiling? = o

end State

/-- A script has declared a function with the name of the accessor of a bit. -/
def FunctionTable.BitDeclared (t : FunctionTable) : Prop :=
  ∃ (i : Fin 8) (d : Declaration), t.get? (Wire.Size.bit i).name = some (.declared d)

/-- The reasons for which evaluation fails: an error of the script, a compilation that breaks down,
which is the last event then, and calls of `bit` that start over without end. -/
inductive Stops (s : State) : Failure → Prop
  | fault (f : Fault)
      (h : ∀ source ∈ s.compiling?, ∀ b, ¬ source.Fails s.functions (.breakdown b)) :
      Stops s (.fault f)
  | compiling {source : Source} {b : Breakdown} (h : s.compiling? = some source)
      (he : source.expr.IsReduced) (hfails : source.Fails s.functions (.breakdown b)) :
      Stops s (.breakdown b)
  | endless (h : s.compiling? = none) (hbit : s.functions.BitDeclared) :
      Stops s (.breakdown .endless)

namespace Eval

open State

variable {t : FunctionTable} {r : Registry} {o : Option Source} {source : Source} {e : Expr}

/-- The failure is one for which evaluation stops, and the functions are those at the beginning. -/
def StopsAt (t : FunctionTable) (f : Failure) (s : State) : Prop := s.functions = t ∧ Stops s f

theorem stops_fault {f : Fault} {s : State} (h : At t r none s) : StopsAt t (.fault f) s :=
  ⟨h.functions, .fault f fun source hsource => by rw [h.compiling] at hsource; cases hsource⟩

/-- While something is compiled of which it is known that it can be. -/
theorem stops_fault_compiling {f : Fault} {s : State} (h : At t r (some source) s)
    (hok : ∀ f, ¬ source.Fails t f) : StopsAt t (.fault f) s := by
  refine ⟨h.functions, .fault f fun source' hsource b hfails => ?_⟩
  rw [h.compiling] at hsource
  cases hsource
  exact hok _ (h.functions ▸ hfails)

/-! ## Texts -/

theorem meets_compiling (source : Source) :
    Meets (At t r none) (record (.compiling source)) (fun _ => At t r (some source))
      (StopsAt t) :=
  fun _ hs => ⟨hs.functions, hs.registry, rfl⟩

/-- A compilation gives a result, or stops for the reason for which it fails. -/
theorem meets_compiled {α : Type} {compile : FunctionTable → Except Failure α} (source : Source)
    (ht : t.Sound) (he : source.expr.IsReduced)
    (h : ∀ f, compile t = .error f → source.Fails t f) :
    Meets (At t r (some source)) (compiled compile)
      (fun a s => At t r (some source) s ∧ compile t = .ok a) (StopsAt t) := by
  intro s hs
  rw [run_compiled, hs.functions]
  cases hc : compile t with
  | ok a => exact ⟨hs, rfl⟩
  | error f =>
    have hfails := h f hc
    refine ⟨hs.functions, ?_⟩
    have compiling {b : Breakdown} (hfails : source.Fails t (.breakdown b)) :
        Stops s (.breakdown b) := .compiling hs.compiling he (hs.functions ▸ hfails)
    obtain ⟨g, rfl⟩ | ⟨rfl, -⟩ | ⟨rfl, -⟩ := hfails.cases ht he
    · exact .fault g fun source' hsource b hb => by
        rw [hs.compiling] at hsource
        cases hsource
        cases hfails.unique (hs.functions ▸ hb)
    · exact compiling hfails
    · exact compiling hfails

theorem meets_conditionText (ht : t.Sound) (he : e.IsReduced) :
    Meets (At t r none) (conditionText e)
      (fun text s => At t r none s ∧ Compile.conditionText t e = .ok text) (StopsAt t) := by
  refine (meets_compiling (.condition e)).bind fun _ => ?_
  refine (meets_compiled (.condition e) ht he fun f => id).bind fun text s hs => ?_
  exact ⟨⟨hs.1.functions, hs.1.registry, rfl⟩, hs.2⟩

theorem meets_valueText (ht : t.Sound) (he : e.IsReduced) :
    Meets (At t r none) (valueText e)
      (fun text s => At t r none s ∧ e.IsReduced ∧ Compile.valueText t e = .ok text)
      (StopsAt t) := by
  refine (meets_compiling (.value e)).bind fun _ => ?_
  refine (meets_compiled (.value e) ht he fun f => id).bind fun text s hs => ?_
  exact ⟨⟨hs.1.functions, hs.1.registry, rfl⟩, he, hs.2⟩

end Eval

/-! ## Achievements and leaderboards -/

namespace Activation

open State

variable {a : Activation} {t : FunctionTable} {r : Registry}

/-- **A call of `achievement` registers an achievement** whose trigger has been compiled. -/
theorem meets_registerAchievement (ht : t.Sound) (ha : a.scope.IsReduced) :
    Meets (At t r none) a.registerAchievement
      (fun _ s => ∃ x : Achievement, x.IsCompiled ∧
        At t { r with achievements := r.achievements ++ [x] } none s)
      (StopsAt t) := by
  refine (inspects_string ha "title").meets_bind (fun _ _ => stops_fault) fun ⟨title, _⟩ _ => ?_
  refine (inspects_string ha "description").meets_bind (fun _ _ => stops_fault)
    fun ⟨description, _⟩ _ => ?_
  refine (inspects_integer ha "points").meets_bind (fun _ _ => stops_fault)
    fun ⟨points, loc⟩ _ => ?_
  dsimp only
  split
  · exact (inspects_fail (S := fun _ => False) _ _).meets_bind (fun _ _ => stops_fault)
      fun _ => False.elim
  next hpoints =>
    refine (inspects_param ha "trigger").meets_bind (fun _ _ => stops_fault) fun e he => ?_
    refine (meets_compiling (.trigger e)).bind fun _ => ?_
    refine (meets_compiled (.trigger e) ht he fun _ => id).bind fun trigger => ?_
    -- The number comes last, when the trigger has been compiled already.
    refine (inspects_integer ha "id").meets_bind (fun _ _ hs => ?_) fun ⟨id, _⟩ _ s hs => ?_
    · refine stops_fault_compiling hs.1 fun f hf => ?_
      cases hs.2.symm.trans hf
    · rw [run_bind, run_register _ hs.1.registry]
      exact ⟨_, ⟨by simpa using hpoints, t, e, ht, he, hs.2⟩, hs.1.functions, rfl, rfl⟩

/-- The alternatives of a value are values, and there is one. -/
theorem meets_alternatives (ht : t.Sound) {e : Expr} (he : e.IsReduced) :
    Meets (At t r none) (alternatives e)
      (fun es s => At t r none s ∧ es ≠ [] ∧ ∀ x ∈ es, x.IsReduced) (StopsAt t) := by
  unfold alternatives
  split
  next name args l =>
    intro s hs
    rw [run_bind, run_function?, hs.functions]
    dsimp only
    split
    next hname =>
      cases ht.named hname
      obtain ⟨hne, hes⟩ := he.leaves (f := .maxOf) rfl
      exact ⟨hs, hne, hes⟩
    · exact ⟨hs, by simp, by simpa using he⟩
  · exact meets_pure fun s hs => ⟨hs, by simp, by simpa using he⟩

/-- **A call of `leaderboard` registers a leaderboard** whose texts have been compiled. -/
theorem meets_registerLeaderboard (ht : t.Sound) (ha : a.scope.IsReduced) :
    Meets (At t r none) a.registerLeaderboard
      (fun _ s => ∃ x : Leaderboard, x.definition.IsCompiled t ∧
        At t { r with leaderboards := r.leaderboards ++ [x] } none s)
      (StopsAt t) := by
  have condition {R : Unit → State → Prop} {f : String → Eval Unit} (x : String)
      (hf : ∀ text, (∃ e, e.IsReduced ∧ Compile.conditionText t e = .ok text) →
        Meets (At t r none) (f text) R (StopsAt t)) :
      Meets (At t r none) (do f (← Eval.conditionText (← a.param x))) R (StopsAt t) := by
    refine (inspects_param ha x).meets_bind (fun _ _ => stops_fault) fun e he => ?_
    exact (meets_conditionText ht he).bind fun text s hs => hf text ⟨e, he, hs.2⟩ s hs.1
  refine (inspects_string ha "title").meets_bind (fun _ _ => stops_fault) fun ⟨title, _⟩ _ => ?_
  refine (inspects_string ha "description").meets_bind (fun _ _ => stops_fault)
    fun ⟨description, _⟩ _ => ?_
  refine condition "start" fun start hstart => ?_
  refine condition "cancel" fun cancel hcancel => ?_
  refine condition "submit" fun submit hsubmit => ?_
  refine (inspects_param ha "value").meets_bind (fun _ _ => stops_fault) fun e he => ?_
  refine (meets_alternatives ht he).bind fun es s hs => ?_
  refine (meets_mapM fun x hx => meets_valueText ht (hs.2.2 x hx)).bind (fun texts => ?_) s hs.1
  refine (inspects_string ha "format").meets_bind (fun _ _ hs => stops_fault hs.1)
    fun ⟨format, _⟩ _ => ?_
  dsimp only
  split
  · exact meets_fail fun _ hs => stops_fault hs.1
  · intro s' hs'
    rw [run_bind, run_register _ hs'.1.registry]
    exact ⟨_, ⟨hstart, hcancel, hsubmit, es, texts, hs.2.1, hs'.2, rfl⟩, hs'.1.functions, rfl, rfl⟩

end Activation

end AchievementLang

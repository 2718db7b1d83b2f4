import AchievementLang.Compilation
import AchievementLang.Proofs.Eval.Engine
import AchievementLang.Proofs.Eval.Registration

/-!
# Runs of scripts

Evaluation as a whole keeps one contract (`contract`): all that is registered was compiled, and a
failure has one of the reasons in `Stops`. It holds at the beginning, so it holds at the end of
every run of a script (`Script.compile_eq_ok`, `Script.compile_eq_error`).

What a call of `bit` stands for is evaluated from the global scope, where the count of calls starts
again. As long as the accessors of bits are those of the language nothing can nest there
(`restartSound`). Where a script has declared one anew, evaluation may start over without end, which
the contract then permits (`restartSound_declared`).
-/

namespace AchievementLang

open Eval State

/-! ## Calls of accessors -/

namespace Engine

variable {C : Contract} {m : Engine} {scope : Scope}

/-- The parameter of an accessor is bound to a number without any evaluation. -/
theorem bind_accessor (size : Wire.Size) (reduce : Scope → Expr → Eval Expr) (n : Int)
    (l loc : Option Loc) :
    Activation.bind (.accessor size) reduce scope loc (m.arguments scope [.integer n l]) =
      pure { function := .accessor size, scope := scope.callee.define "address" (.integer n l),
             surplus := [], loc := loc } := by
  rfl

/-- A call of an accessor on a number needs no engine. -/
theorem reduce_accessor {size : Wire.Size} {name : String} (hscope : scope.IsReduced) (n : Int)
    (l loc : Option Loc) {s : State} (hs : C.Inv s)
    (hname : s.functions.get? name = some (.accessor size)) :
    Ends (fun e s' => C.Inv s' ∧ e.IsReduced) C.Fails
      ((m.reduce scope (.call name [.integer n l] loc)).run s) := by
  rw [Engine.reduce, call, run_bind, enter, run_bind, run_resolve hname]
  dsimp only
  cases m.inner with
  | none => exact C.fault _ hs
  | some inner =>
    dsimp only
    rw [bind_accessor]
    have h := Activation.keeps_accessor (C := C) (s := size)
      (a := ⟨.accessor size, scope.callee.define "address" (.integer n l), [], loc⟩) rfl
      (hscope.callee.define _ (.integer n l))
    exact h _ (C.reducing name _ hs)

end Engine

/-! ## The contract of evaluation -/

theorem FunctionTable.BitDeclared.set {t : FunctionTable} (h : t.BitDeclared) (d : Declaration) :
    FunctionTable.BitDeclared (Bindings.set t d.name (.declared d)) := by
  obtain ⟨i, d', h⟩ := h
  by_cases hname : d.name = (Wire.Size.bit i).name
  · exact ⟨i, d, by rw [Bindings.get?_set, if_pos hname]⟩
  · exact ⟨i, d', by rw [Bindings.get?_set, if_neg hname, h]⟩

/-- Between two steps of evaluation, all that is registered was compiled, and nothing is being
compiled. If it is so wished, the accessor of a bit has been declared anew. -/
def State.Idle (bit : Prop) (s : State) : Prop :=
  ∃ t r, t.Sound ∧ r.IsCompiled ∧ At t r none s ∧ (bit → t.BitDeclared)

theorem stops_of_stopsAt {t : FunctionTable} {f : Failure} {s : State} (ht : t.Sound)
    (h : StopsAt t f s) : s.functions.Sound ∧ Stops s f :=
  ⟨h.1 ▸ ht, h.2⟩

/-- What evaluation keeps and how it fails. -/
def contract (bit : Prop) : Contract where
  Inv := State.Idle bit
  Fails f s := s.functions.Sound ∧ Stops s f
  named := by
    rintro s name f ⟨t, r, ht, -, hat, -⟩ h
    exact ht.named (hat.functions ▸ h)
  declare := by
    rintro s d ⟨t, r, ht, hr, hat, hbit⟩
    refine ⟨_, r, ht.set d, hr, ⟨?_, hat.registry, hat.compiling⟩, fun h => (hbit h).set d⟩
    rw [Eval.declare, hat.functions]
  reducing := by
    rintro s name depth ⟨t, r, ht, hr, hat, hbit⟩
    exact ⟨t, r, ht, hr, ⟨hat.functions, hat.registry, rfl⟩, hbit⟩
  evaluating := by
    rintro s name depth ⟨t, r, ht, hr, hat, hbit⟩
    exact ⟨t, r, ht, hr, ⟨hat.functions, hat.registry, rfl⟩, hbit⟩
  fault := by
    rintro s f ⟨t, r, ht, -, hat, -⟩
    exact stops_of_stopsAt ht (stops_fault hat)
  achievement := by
    rintro a ha s ⟨t, r, ht, hr, hat, hbit⟩
    refine (Activation.meets_registerAchievement ht ha s hat).mono (fun _ s' h => ?_)
      fun f s' => stops_of_stopsAt ht
    obtain ⟨x, hx, hat'⟩ := h
    exact ⟨t, _, ht, hr.achievement hx, hat', hbit⟩
  leaderboard := by
    rintro a ha s ⟨t, r, ht, hr, hat, hbit⟩
    refine (Activation.meets_registerLeaderboard ht ha s hat).mono (fun _ s' h => ?_)
      fun f s' => stops_of_stopsAt ht
    obtain ⟨x, hx, hat'⟩ := h
    exact ⟨t, _, ht, hr.leaderboard ht hx, hat', hbit⟩

theorem inv_initial : (contract False).Inv {} :=
  ⟨.initial, {}, FunctionTable.sound_initial, ⟨by simp, by simp⟩, ⟨rfl, rfl, rfl⟩, False.elim⟩

/-! ## Starting over -/

/-- Where the accessor of a bit has been declared anew, evaluation may start over without end. -/
theorem restartSound_declared (limit : Int) (n : Nat) :
    RestartSound (contract True) (restarting limit n) := by
  induction n with
  | zero =>
    rintro scope i k l l' - s ⟨t, r, ht, -, hat, hbit⟩
    exact ⟨hat.functions ▸ ht, .endless hat.compiling (hat.functions ▸ hbit trivial)⟩
  | succ n ih =>
    intro scope i k l l' hscope
    exact (sound_engine limit ih limit.toNat).reduce hscope _

/-- Else, what a call of `bit` stands for is a call of an accessor. -/
theorem restartSound (limit : Int) (n : Nat) :
    RestartSound (contract False) (restarting limit (n + 1)) := by
  rintro scope i k l l' hscope s ⟨t, r, ht, hr, hat, hbit⟩
  obtain h | ⟨d, h⟩ := ht.get? (f := .accessor (.bit i)) rfl
  · exact Engine.reduce_accessor hscope k l l' ⟨t, r, ht, hr, hat, hbit⟩ (hat.functions ▸ h)
  · have hdeclared := restartSound_declared limit (n + 1) scope i k l l' hscope s
      ⟨t, r, ht, hr, hat, fun _ => ⟨i, d, h⟩⟩
    refine hdeclared.mono (fun e s' hs => ⟨?_, hs.2⟩) fun _ _ => id
    obtain ⟨t, r, ht, hr, hat, -⟩ := hs.1
    exact ⟨t, r, ht, hr, hat, False.elim⟩

/-- **Evaluation in a scope with values keeps the contract.** -/
theorem sound_within (limit : Int) (scope : Scope) :
    (Engine.within limit scope).Sound (contract False) :=
  sound_engine limit (restartSound limit _) _

/-! ## Scripts -/

namespace Script

/-- The state in which a run of the script ends. A script with a `return` outside of functions is
not run at all. -/
def finalState (limit : Int) (s : Script) : State :=
  match s.statements.find? isReturn with
  | some _ => {}
  | none => ((({} : Scope).execute limit s.statements).run {}).2

variable {limit : Int} {s : Script}

theorem ran_statements (limit : Int) (statements : List Expr) :
    Engine.Ran (contract False) ((({} : Scope).execute limit statements).run {}) :=
  (sound_within limit {}).execute statements Scope.isReduced_empty inv_initial

/-- **A script that compiles** declares what has been compiled. -/
theorem compile_eq_ok {c : Compilation} (h : (s.compile limit).1 = .ok c) :
    (∀ a ∈ c.achievements, a.IsCompiled) ∧
      (∀ l ∈ c.leaderboards, ∃ t : FunctionTable, t.Sound ∧ l.definition.IsCompiled t) ∧
      (s.finalState limit).compiling? = none := by
  have hran := ran_statements limit s.statements
  unfold compile at h
  unfold finalState
  cases hreturn : s.statements.find? isReturn with
  | some e =>
    simp only [hreturn] at h
    cases h
  | none =>
    simp only [hreturn] at h ⊢
    generalize (({} : Scope).execute limit s.statements).run {} = r at h hran ⊢
    obtain ⟨⟨scope, _ | v⟩, state⟩ := r
    · cases h
    · cases h
      obtain ⟨-, ⟨t, r, -, hr, hat, -⟩, -⟩ := hran
      have hdeclared : state.registry.getD {} = r := by rw [hat.registry, Option.getD_some]
      rw [← hdeclared] at hr
      exact ⟨hr.achievements, hr.leaderboards, hat.compiling⟩

/-- **A script that does not compile** stops for one of the reasons that there are. -/
theorem compile_eq_error {f : Failure} (h : (s.compile limit).1 = .error f) :
    (s.finalState limit).functions.Sound ∧ Stops (s.finalState limit) f := by
  have hran := ran_statements limit s.statements
  unfold compile at h
  unfold finalState
  cases hreturn : s.statements.find? isReturn with
  | some e =>
    simp only [hreturn] at h ⊢
    cases h
    exact ⟨FunctionTable.sound_initial, .fault _ (by simp [State.compiling?])⟩
  | none =>
    simp only [hreturn] at h ⊢
    generalize (({} : Scope).execute limit s.statements).run {} = r at h hran ⊢
    obtain ⟨⟨scope, _ | v⟩, state⟩ := r
    · cases h
      exact hran.2
    · cases h

/-- A script compiles if something that it declares is known. -/
theorem exists_compileText_eq_ok {α : Type} (limit : Int) (text : String) (f : Compilation → α)
    {a : α} (h : (compileText limit text).toOption.map f = some a) :
    ∃ c, compileText limit text = .ok c ∧ f c = a := by
  cases hc : compileText limit text with
  | error f =>
    rw [hc] at h
    cases h
  | ok c =>
    rw [hc] at h
    exact ⟨c, rfl, Option.some.inj h⟩

end Script

end AchievementLang

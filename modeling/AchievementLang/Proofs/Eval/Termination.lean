import AchievementLang.Proofs.Eval.Simulation

/-!
# Evaluation ends

From every script that leaves the accessors of bits alone, a run of the machine comes to an end,
whatever the script's functions call or declare anew, and so does the evaluation of any expression
in the state that the script leaves (`halts_of_leavesBits`). There is a scope for every call that is
under way, and none of them is deeper than the limit.

Evaluation by an engine goes by the number of calls that are still permitted and by the structure of
expressions and statements. Engines are followed by the machine at every depth
(`onMachine_engine`): arguments are evaluated by the same engine, defaults and bodies by the one
below. What `bit` stands for is evaluated by an engine for the global scope, where an accessor at a
number is evaluated at once (`restartOnMachine`).
-/

namespace AchievementLang

open Eval State Machine

/-! ## Engines -/

section Engines

variable (limit : Int)

/-- The accessor of a bit, called at a number. -/
theorem performs_bit {m : Engine} (hlimit : m.limit = limit) {scope : Scope}
    (hinner : m.inner = none ↔ limit ≤ scope.depth) (i : Fin 8) (n : Int) (l loc : Option Loc) :
    Performs limit (.mk (.reduce scope (.call (Wire.Size.bit i).name [.integer n l] loc)))
      (m.reduce scope (.call (Wire.Size.bit i).name [.integer n l] loc)) .value := by
  rw [Engine.reduce, Engine.call, Engine.enter, Engine.resolve, bind_assoc, bind_assoc]
  suffices h : Performs limit (fun s stack => startCall s stack limit .value scope
      (Wire.Size.bit i).name [.integer n l] loc (s.functions.get? (Wire.Size.bit i).name)) _ .value
    from (h.of_step fun _ _ => rfl).of_step fun _ _ => rfl
  refine performs_function? (Q := fun f => f = some (.accessor (.bit i)))
    (fun f s stack =>
      startCall s stack limit .value scope (Wire.Size.bit i).name [.integer n l] loc f)
    (fun s hs => hs.get?_bit i) ?_
  rintro _ rfl
  unfold startCall
  rw [pure_bind]
  cases hm : m.inner with
  | none =>
    simp only [if_pos (hinner.1 hm), hlimit]
    exact performs_fail _ _
  | some inner =>
    have hbelow : ¬ limit ≤ scope.depth := by
      intro h
      rw [hinner.2 h] at hm
      cases hm
    simp only [if_neg hbelow, Engine.bind_accessor, pure_bind]
    have haccessor : Performs limit _ _ .value := (performs_atOnce
      (Activation.keepsFunctions_accessor ⟨.accessor (.bit i),
        scope.callee.define "address" (.integer n l), [], loc⟩) rfl).record
      (.reducing (Wire.Size.bit i).name (scope.depth + 1))
    intro s stack hs
    obtain ⟨hs', hreach⟩ := haccessor s stack hs
    -- The number is bound to the only parameter, and the function is entered.
    exact ⟨hs', .trans ⟨7, rfl⟩ hreach⟩

/-- What `bit` stands for is evaluated at once. -/
theorem restartOnMachine (k : Nat) : RestartOnMachine limit (restarting limit (k + 1)) := by
  intro scope i n l loc hdepth
  have hlimit : (engine limit (restarting limit k) limit.toNat).limit = limit := by
    cases limit.toNat <;> rfl
  have hinner : (engine limit (restarting limit k) limit.toNat).inner = none ↔
      limit ≤ scope.depth := by
    rw [hdepth, Int.natCast_zero, ← Int.toNat_eq_zero]
    cases limit.toNat <;> simp [engine]
  exact performs_bit limit hlimit hinner i n l loc

/-- **Engines at every depth.** -/
theorem onMachine_engine {restart : Scope → Expr → Eval Expr} (h : RestartOnMachine limit restart)
    {n d : Nat} (hn : (limit - d).toNat = n) : (engine limit restart n).OnMachine limit d := by
  -- One call deeper one call less is permitted, and `limit - d` is one less as well.
  induction n generalizing d with
  | zero => exact ⟨rfl, fun _ => by omega, nofun, h⟩
  | succ n ih =>
    have hinner : (engine limit restart n).OnMachine limit (d + 1) := ih (by omega)
    refine ⟨rfl, nofun, ?_, h⟩
    rintro _ ⟨⟩
    exact ⟨by omega, fun _ e hdepth => hinner.reduce hdepth e,
      fun _ _ hdepth hbody => hinner.run hbody hdepth⟩

theorem onMachine_within (scope : Scope) :
    (Engine.within limit scope).OnMachine limit scope.depth :=
  onMachine_engine limit (restartOnMachine limit _) rfl

end Engines

/-! ## Scripts -/

/-- Evaluation ends: from one configuration on, a run of the machine leads to the other, where
nothing changes any more, and no scope of a function on the way is deeper than the limit. -/
structure Halts (limit : Int) (c c' : Config) : Prop where
  reaches : ∃ n, (step limit)^[n] c = c'
  final : step limit c' = c'
  within : ∀ n, ∀ scope ∈ ((step limit)^[n] c).scopes,
    scope.depth = 0 ∨ (scope.depth : Int) ≤ limit

/-- A failure is not for want of an end if the accessors of bits are those of the language. -/
theorem ne_endless {α : Type} {Q : α → State → Prop} {r : Except Failure α × State}
    (h : Ends Q (contract False).Fails r) (hs : BitsKept r.2) :
    r.1 ≠ .error (.breakdown .endless) := by
  obtain ⟨f | a, s⟩ := r
  · rintro ⟨⟩
    obtain ⟨hsound, hstops⟩ := h
    cases hstops with
    | compiling hcompiling he hfails =>
      obtain ⟨g, h⟩ | ⟨h, -⟩ | ⟨h, -⟩ := hfails.cases hsound he
      all_goals cases h
    | endless hcompiling hbit => exact hs.kept hbit
  · exact nofun

/-- **Evaluation ends.** A script that leaves the accessors of bits alone is run in finitely many
steps, to what `Scope.execute` says, and so is evaluated every expression afterwards. -/
theorem halts_of_leavesBits (limit : Int) {statements : List Expr} (h : LeavesBits statements) :
    let r := (({} : Scope).execute limit statements).run {}
    Halts limit (start statements) (final r) ∧ r.1.2 ≠ .error (.breakdown .endless) ∧
      ∀ v, r.1.2 = .ok v → ∀ e,
        Halts limit ⟨.reduce r.1.1 e, r.2, []⟩ (perform r.2 [] .value (r.1.1.reduce limit e)) ∧
          ((r.1.1.reduce limit e).run r.2).1 ≠ .error (.breakdown .endless) := by
  intro r
  have hran : Engine.Ran (contract False) r := Script.ran_statements limit statements
  obtain ⟨hs, hdepth, hreach⟩ : RunsTo limit 0 (start statements) r [] :=
    (onMachine_within limit {}).execute h rfl .initial []
  refine ⟨⟨hreach, step_final limit r, within_iterate_step (within_start statements)⟩,
    ne_endless hran.2 hs, fun v hv e => ?_⟩
  -- A failure may leave the state in the middle of a compilation, a value does not.
  have hinv : (contract False).Inv r.2 := by
    have hends := hran.2
    rw [hv] at hends
    exact hends.1
  have hvalue := (sound_within limit r.1.1).reduce hran.1 e r.2 hinv
  obtain ⟨hs', hreach'⟩ := (onMachine_within limit r.1.1).reduce rfl e r.2 [] hs
  have hwithin : Config.Within limit ⟨.reduce r.1.1 e, r.2, []⟩ := by
    simp [Control.scopes, Machine.Within, StackWithin, hdepth]
  exact ⟨⟨hreach', step_perform_value limit _ _, within_iterate_step hwithin⟩,
    ne_endless hvalue hs'⟩

/-- A function that calls itself with what it is given, without end. -/
def selfCalling : List Expr :=
  [.declare "f" ["n"] [] [.call "f" [.var "n" none] none] none,
    .call "f" [.call "bit" [.integer 3 none, .integer 16 none] none] none]

theorem leavesBits_selfCalling : LeavesBits selfCalling := by
  simp only [LeavesBits, selfCalling, Expr.declaredIn, Expr.declared]
  decide

/-- Its calls end where the limit is. -/
theorem halts_selfCalling :
    LeavesBits selfCalling ∧
      ((({} : Scope).execute 5 selfCalling).run {}).1.2.isOk = false ∧
      ((({} : Scope).execute 5 selfCalling).run {}).1.2 ≠ .error (.breakdown .endless) ∧
      Halts 5 (start selfCalling) (final ((({} : Scope).execute 5 selfCalling).run {})) := by
  obtain ⟨hhalts, hend, -⟩ := halts_of_leavesBits 5 leavesBits_selfCalling
  exact ⟨leavesBits_selfCalling, by decide +kernel, hend, hhalts⟩

end AchievementLang

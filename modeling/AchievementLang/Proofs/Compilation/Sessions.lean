import AchievementLang.Proofs.Eval.Registered
import AchievementLang.Proofs.Eval.Variables
import AchievementLang.Proofs.Grammar.Malformed

/-!
# Runs one after the other

A run gives everything or nothing, and it does not depend on the runs before it
(`Session.run_allOrNothing`): a script that does not parse changes only the failure, one that fails
leaves the two lists empty whatever it has registered by then, and one that succeeds has all that it
has registered. So after any number of runs the results are those of the last script that parses,
compiled on its own, and the failure is that of the last one (`Session.runAll_eq`).
-/

namespace AchievementLang

namespace Script

/-! ## How a script ends -/

/-- How a run of the script in a fresh global scope ends: with what its statements come to, and with
what they have registered by then. A script with a `return` outside of functions is not run. -/
inductive Ends (limit : Int) (s : Script) : Except Failure (Option Expr) → Registry → Prop
  | refused {e : Expr} (h : s.statements.find? isReturn = some e) :
    Ends limit s (.error (.at? .topLevelReturn e.loc)) {}
  | ran {scope : Scope} {result : Except Failure (Option Expr)} {state : State} {r : Registry}
    (hreturn : s.statements.find? isReturn = none)
    (hrun : (({} : Scope).execute limit s.statements).run {} = ((scope, result), state))
    (hregistry : state.registry = some r) : Ends limit s result r

/-- What has been registered, under the title and the number of the script. -/
def declaring (s : Script) (r : Registry) : Compilation where
  title := s.title
  gameId := s.gameId
  achievements := r.achievements
  leaderboards := r.leaderboards

variable {limit : Int} {s : Script} {result : Except Failure (Option Expr)} {r : Registry}

/-- Every run ends, and there is a registry when it does. -/
theorem exists_ends (limit : Int) (s : Script) : ∃ result r, s.Ends limit result r := by
  cases hreturn : s.statements.find? isReturn with
  | some e => exact ⟨_, _, .refused hreturn⟩
  | none =>
    obtain ⟨r, hregistry, -⟩ := Engine.exists_isPrefix_execute limit {} Scope.isReduced_empty
      (s := {}) FunctionTable.sound_initial rfl s.statements
    exact ⟨_, r, .ran hreturn rfl hregistry⟩

/-- Compiling a script gives what it has registered, unless it fails. -/
theorem Ends.compile (h : s.Ends limit result r) :
    (s.compile limit).1 = result.map fun _ => s.declaring r := by
  cases h with
  | refused h =>
    unfold Script.compile
    rw [h]
    rfl
  | ran hreturn hrun hregistry =>
    unfold Script.compile
    rw [hreturn]
    dsimp only
    rw [hrun]
    dsimp only
    rw [hregistry]
    rfl

/-- **What a script has registered is not lost when it fails later on.** All that is registered
after its first statements still is when the run ends, whichever way it does. -/
theorem Ends.isPrefix (h : s.Ends limit result r) (hreturn : s.statements.find? isReturn = none)
    {done rest : List Expr} (hs : s.statements = done ++ rest) {scope : Scope} {state : State}
    (hdone : (({} : Scope).execute limit done).run {} = ((scope, .ok none), state))
    {r' : Registry} (hregistry : state.registry = some r') : r'.IsPrefix r := by
  cases h with
  | refused h => cases hreturn.symm.trans h
  | ran _ hrun hfinal =>
    have hran := ran_statements limit done
    rw [hdone] at hran
    obtain ⟨hscope, ⟨t, _, ht, -, hat, -⟩, -⟩ := hran
    obtain ⟨r'', hrest, hfront⟩ := Engine.exists_isPrefix_execute limit {} hscope
      (hat.functions ▸ ht) hregistry rest
    rw [Scope.execute] at hdone hrun
    rw [hs, Engine.run_execute_append, hdone] at hrun
    dsimp only at hrun
    rw [hrun] at hrest
    cases hfinal.symm.trans hrest
    exact hfront

end Script

namespace Session

/-! ## Runs -/

/-- The session after running texts one after the other. -/
def runAll (limit : Int) (texts : List String) : Session := texts.foldl (run limit) {}

/-- What the last run has returned: whether it succeeded. A run that broke down, without an error of
the script to report, has not returned. -/
def returned? (session : Session) : Option Bool :=
  match session.failure with
  | none => some true
  | some f => f.diagnostic?.map fun _ => false

variable {limit : Int} {session : Session} {text : String}

theorem runAll_concat (limit : Int) (texts : List String) (text : String) :
    runAll limit (texts ++ [text]) = (runAll limit texts).run limit text :=
  List.foldl_concat ..

theorem run_of_parse_error {f : Fault} (h : Script.parse text = .error f) :
    session.run limit text = { session with failure := some (.fault f) } := by
  rw [run, h]

theorem run_of_parse_ok {s : Script} (h : Script.parse text = .ok s) :
    session.run limit text = evaluate limit s := by
  rw [run, h]

theorem evaluate_of_ends_ok {s : Script} {v : Option Expr} {r : Registry}
    (h : s.Ends limit (.ok v) r) : evaluate limit s = { result := s.declaring r } := by
  rw [evaluate, h.compile]
  rfl

theorem evaluate_of_ends_error {s : Script} {f : Failure} {r : Registry}
    (h : s.Ends limit (.error f) r) :
    evaluate limit s = { result := s.declaring {}, failure := some f } := by
  rw [evaluate, h.compile]
  rfl

/-- **A run gives everything or nothing, and does not depend on earlier ones.** A text that does not
parse changes only the failure. Otherwise the session is the one after a first run of that text
alone, and the results have the title and the number of the script. If the script fails nothing else
is in them, whatever it has registered by then; if not, all that it has registered is. -/
theorem run_allOrNothing (limit : Int) (earlier : List String) (text : String) :
    let before := runAll limit earlier
    let after := before.run limit text
    match Script.parse text with
    | .error f =>
      f.cause.kind = .malformedScript ∧ after.returned? = some false ∧
        after.failure = some (.fault f) ∧ after.result = before.result
    | .ok s =>
      after = ({} : Session).run limit text ∧ ∃ result r, s.Ends limit result r ∧
        match result with
        | .error f => after.returned? = f.diagnostic?.map (fun _ => false) ∧
            after.failure = some f ∧ after.result = s.declaring {}
        | .ok _ => after.returned? = some true ∧ after.failure = none ∧
            after.result = s.declaring r := by
  intro before after
  cases hparse : Script.parse text with
  | error f =>
    have hafter : after = { before with failure := some (.fault f) } := run_of_parse_error hparse
    rw [hafter]
    exact ⟨Script.kind_of_parse hparse, rfl, rfl, rfl⟩
  | ok s =>
    have hafter : after = evaluate limit s := run_of_parse_ok hparse
    obtain ⟨result, r, hends⟩ := s.exists_ends limit
    refine ⟨hafter.trans (run_of_parse_ok hparse).symm, result, r, hends, ?_⟩
    cases result with
    | error f =>
      rw [hafter, evaluate_of_ends_error hends]
      exact ⟨rfl, rfl, rfl⟩
    | ok v =>
      rw [hafter, evaluate_of_ends_ok hends]
      exact ⟨rfl, rfl, rfl⟩

/-- One after the other: a script that declares an achievement, one that calls an unknown function
behind another achievement, and a text that does not parse. -/
example :
    let session := runAll defaultCallDepth
      ["// One\nachievement(\"t\", \"d\", 5, byte(1) == 2)",
        "// Two\n// #ID = 7\nachievement(\"t\", \"d\", 5, byte(1) == 2)\nunknown()", "(("]
    session.returned? = some false ∧
      session.result = { title := some "Two", gameId := some 7 } := by
  decide +kernel

/-- **The session after any number of runs.** The results are those of the last text that parses,
and the failure is that of the last text, each as if it were run alone. -/
theorem runAll_eq (limit : Int) (texts : List String) :
    runAll limit texts =
      { result := ((texts.filter fun text => (Script.parse text).isOk).getLast?.map fun text =>
          (({} : Session).run limit text).result).getD {}
        failure := texts.getLast?.bind fun text => (({} : Session).run limit text).failure } := by
  induction texts using List.reverseRecOn with
  | nil => rfl
  | append_singleton texts text ih =>
    rw [runAll_concat, List.filter_append, List.getLast?_concat, Option.bind_some]
    cases hparse : Script.parse text with
    | error f =>
      have hskip : [text].filter (fun text => (Script.parse text).isOk) = [] := by
        simp [hparse, Except.isOk, Except.toBool]
      rw [run_of_parse_error hparse, run_of_parse_error hparse, hskip, List.append_nil, ih]
    | ok s =>
      have hkeep : [text].filter (fun text => (Script.parse text).isOk) = [text] := by
        simp [hparse, Except.isOk, Except.toBool]
      rw [hkeep, List.getLast?_concat, Option.map_some, Option.getD_some, run_of_parse_ok hparse,
        run_of_parse_ok hparse]

end Session

end AchievementLang

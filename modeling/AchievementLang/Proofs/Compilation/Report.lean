import AchievementLang.Proofs.Eval.Run

/-!
# What runs report

A run reports why it failed, with two exceptions: a compilation breaks down, or evaluation starts
over without end (`Session.reports_run_or_startsOver_iff`). The first happens exactly if the run
ends in a compilation that meets the previous value of a memory read whose accessor the script has
declared anew, before it meets any error of the script, or ends in that of a value with a multiplier
that is too large to be written. The second takes a script that declares the accessor of a bit.
-/

namespace AchievementLang

namespace Script

/-- The run of the script ends in a compilation that breaks down. -/
inductive BreaksDown (limit : Int) (s : Script) : Prop
  /-- An operand is the previous value of what is no memory read any more. -/
  | stale {source : Source} (h : (s.finalState limit).compiling? = some source)
      (hfails : source.Fails (s.finalState limit).functions (.breakdown .staleCall))
      (hstale : source.expr.HasStale (s.finalState limit).functions)
  /-- A multiplier is not an integer and too large for double precision. -/
  | large {source : Source} (h : (s.finalState limit).compiling? = some source)
      (hlarge : source.HasLarge (s.finalState limit).functions)

/-- The run of the script starts over without end, which the accessor of a bit makes it do that the
script has declared. -/
def StartsOver (limit : Int) (s : Script) : Prop :=
  (s.compile limit).1 = .error (.breakdown .endless) ∧
    (s.finalState limit).functions.BitDeclared

variable {limit : Int} {s : Script}

/-- The last event is the compilation that has broken down. -/
theorem BreaksDown.exists_fails (h : s.BreaksDown limit) :
    ∃ source b, (s.finalState limit).compiling? = some source ∧
      source.Fails (s.finalState limit).functions (.breakdown b) := by
  cases h with
  | stale h hfails => exact ⟨_, _, h, hfails⟩
  | large h hlarge => exact ⟨_, _, h, hlarge.fails⟩

/-- A script that compiles does not break down, and one that does not compile starts over or breaks
down exactly if there is no error to report. -/
theorem reports_compile_iff :
    (∀ f, (s.compile limit).1 = .error f → f.diagnostic?.isSome = true) ∨ s.StartsOver limit ↔
      ¬ s.BreaksDown limit := by
  cases hcompile : (s.compile limit).1 with
  | ok c =>
    refine iff_of_true (.inl nofun) fun h => ?_
    obtain ⟨source, b, hcompiling, -⟩ := h.exists_fails
    rw [(compile_eq_ok hcompile).2.2] at hcompiling
    cases hcompiling
  | error f =>
    obtain ⟨hsound, hstops⟩ := compile_eq_error hcompile
    cases hstops with
    | fault g hg =>
      refine iff_of_true (.inl fun f hf => ?_) fun h => ?_
      · cases hf
        rfl
      · obtain ⟨source, b, hcompiling, hfails⟩ := h.exists_fails
        exact hg source hcompiling b hfails
    | compiling hcompiling he hfails =>
      have hcases := hfails.cases hsound he
      refine iff_of_false (fun h => ?_) (not_not_intro ?_)
      · obtain h | h := h
        · cases h _ rfl
        · rw [StartsOver, hcompile] at h
          cases h.1
          obtain ⟨g, h⟩ | ⟨h, -⟩ | ⟨h, -⟩ := hcases
          all_goals cases h
      · obtain ⟨g, h⟩ | ⟨h, hstale⟩ | ⟨-, hlarge⟩ := hcases
        · cases h
        · cases h
          exact .stale hcompiling hfails hstale
        · exact .large hcompiling hlarge
    | endless hcompiling hbit =>
      refine iff_of_true (.inr ⟨hcompile, hbit⟩) fun h => ?_
      obtain ⟨source, b, hcompiling', -⟩ := h.exists_fails
      rw [hcompiling] at hcompiling'
      cases hcompiling'

end Script

namespace Session

/-- The session has not failed, or there is an error that tells why. -/
def Reports (session : Session) : Prop := ∀ f ∈ session.failure, f.diagnostic?.isSome = true

instance : DecidablePred Reports := fun session =>
  inferInstanceAs (Decidable (∀ f ∈ session.failure, f.diagnostic?.isSome = true))

instance (f : Option Failure) (b : Breakdown) : Decidable (f = some (.breakdown b)) :=
  match f with
  | none | some (.fault _) | some (.malformed _) => isFalse nofun
  | some (.breakdown b') => decidable_of_iff (b' = b) (by simp)

/-- **A run that fails reports an error of the script**, unless it starts over without end, exactly
if no compilation breaks down. -/
theorem reports_run_or_startsOver_iff (session : Session) (limit : Int) (text : String) :
    (session.run limit text).Reports ∨ (∃ s, Script.parse text = .ok s ∧ s.StartsOver limit) ↔
      ∀ s, Script.parse text = .ok s → ¬ s.BreaksDown limit := by
  cases hparse : Script.parse text with
  | error f =>
    refine iff_of_true (.inl ?_) nofun
    simp [run, hparse, Reports, Failure.diagnostic?]
  | ok s =>
    have hreports : (session.run limit text).Reports ↔
        ∀ f, (s.compile limit).1 = .error f → f.diagnostic?.isSome = true := by
      unfold run Reports
      simp only [hparse, evaluate]
      cases (s.compile limit).1 <;> simp
    simp only [Except.ok.injEq, exists_eq_left', forall_eq', hreports]
    exact Script.reports_compile_iff

/-- A script that keeps the previous value of a byte, then declares `byte` anew and compares what it
has kept. -/
def redeclaringScript : String :=
  "x = prev(byte(1))\nfunction byte(a) => a\nachievement(\"t\", \"d\", 1, x == 1)"

/-- Its run fails and does not report why, although it does not start over. -/
theorem not_reports_run_redeclaringScript :
    ¬ ((({} : Session).run defaultCallDepth redeclaringScript).Reports ∨
      ∃ s, Script.parse redeclaringScript = .ok s ∧ s.StartsOver defaultCallDepth) := by
  have hchars : redeclaringScript.toList = _ := String.toList_ofList
  have hstale : (({} : Session).run defaultCallDepth redeclaringScript).failure =
      some (.breakdown .staleCall) := by
    rw [run, Script.parse, hchars]
    decide +kernel
  rintro (h | ⟨s, hparse, hcompile, -⟩)
  · cases h _ hstale
  · simp [run, hparse, evaluate, hcompile] at hstale

end Session

end AchievementLang

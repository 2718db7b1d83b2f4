import AchievementLang.Proofs.Eval.Effects
import AchievementLang.Proofs.Eval.Run

/-!
# What has been registered stays registered

No step of evaluation takes an achievement or a leaderboard out of the registry, or puts one in
front of another: whatever statements do, and whether or not they fail, the registry before them is
a prefix of the one behind them (`Engine.exists_isPrefix_execute`). So a run that fails has kept all
that was registered before the failure, from however deep inside of functions.
-/

namespace AchievementLang

open Eval

/-- The second registry has what the first one has, and goes on from there. -/
structure Registry.IsPrefix (r r' : Registry) : Prop where
  achievements : r.achievements <+: r'.achievements
  leaderboards : r.leaderboards <+: r'.leaderboards

namespace Registry.IsPrefix

variable {r r' : Registry}

theorem refl (r : Registry) : r.IsPrefix r := ⟨List.prefix_rfl, List.prefix_rfl⟩

theorem achievement (h : r.IsPrefix r') (x : Achievement) :
    r.IsPrefix { r' with achievements := r'.achievements ++ [x] } :=
  ⟨h.achievements.trans (List.prefix_append _ _), h.leaderboards⟩

theorem leaderboard (h : r.IsPrefix r') (x : Leaderboard) :
    r.IsPrefix { r' with leaderboards := r'.leaderboards ++ [x] } :=
  ⟨h.achievements, h.leaderboards.trans (List.prefix_append _ _)⟩

end Registry.IsPrefix

namespace State

/-- What the registry has held is still in it, and names denote functions that have these names. -/
structure Holds (r : Registry) (s : State) : Prop where
  sound : s.functions.Sound
  registry : ∃ r', s.registry = some r' ∧ r.IsPrefix r'

/-- To record and to register loses nothing. -/
theorem permits_holds (r : Registry) : Permits fun s s' => s.Holds r → s'.Holds r where
  refl _ := id
  trans h h' := h' ∘ h
  event _ _ hs := ⟨hs.sound, hs.registry⟩
  achievement x s r' hr hs := by
    obtain ⟨r'', hr'', hfront⟩ := hs.registry
    cases hr.symm.trans hr''
    exact ⟨hs.sound, _, rfl, hfront.achievement x⟩
  leaderboard x s r' hr hs := by
    obtain ⟨r'', hr'', hfront⟩ := hs.registry
    cases hr.symm.trans hr''
    exact ⟨hs.sound, _, rfl, hfront.leaderboard x⟩

end State

open State

/-- What keeps the registry whichever way it ends meets that as an invariant. -/
theorem Eval.Leads.meets {r : Registry} {x : Eval Unit}
    (h : Leads (fun s s' => s.Holds r → s'.Holds r) x) :
    Meets (State.Holds r) x (fun _ => State.Holds r) fun _ => State.Holds r := by
  intro s hs
  have hend := h s hs
  generalize x.run s = result at hend ⊢
  obtain ⟨_ | a, s'⟩ := result
  · exact hend
  · exact hend

/-- Evaluation keeps what has been registered, also where it fails. -/
def registering (r : Registry) : Contract where
  Inv := State.Holds r
  Fails _ := State.Holds r
  named hs h := hs.sound.named h
  declare d hs := ⟨hs.sound.set d, hs.registry⟩
  reducing _ _ hs := ⟨hs.sound, hs.registry⟩
  evaluating _ _ hs := ⟨hs.sound, hs.registry⟩
  fault _ hs := hs
  achievement _ := Leads.meets ((permits_holds r).leads_registerAchievement _)
  leaderboard _ := Leads.meets ((permits_holds r).leads_registerLeaderboard _)

theorem restartSound_registering (r : Registry) (limit : Int) (n : Nat) :
    RestartSound (registering r) (restarting limit n) := by
  induction n with
  | zero => exact fun _ _ _ _ _ _ s hs => hs
  | succ n ih => exact fun scope i k l l' hscope => (sound_engine limit ih _).reduce hscope _

/-- **Statements keep what has been registered**, whether or not they fail. -/
theorem Engine.exists_isPrefix_execute (limit : Int) (outer : Scope) {scope : Scope} {s : State}
    {r : Registry} (hscope : scope.IsReduced) (hs : s.functions.Sound) (hr : s.registry = some r)
    (statements : List Expr) :
    ∃ r', (((Engine.within limit outer).execute scope statements).run s).2.registry = some r' ∧
      r.IsPrefix r' := by
  have hsound : (Engine.within limit outer).Sound (registering r) :=
    sound_engine limit (restartSound_registering r limit _) _
  obtain ⟨-, hend⟩ := hsound.execute statements hscope ⟨hs, r, hr, .refl r⟩
  generalize ((Engine.within limit outer).execute scope statements).run s = result at hend ⊢
  obtain ⟨⟨scope', _ | v⟩, s'⟩ := result
  · exact hend.registry
  · exact hend.1.registry

end AchievementLang

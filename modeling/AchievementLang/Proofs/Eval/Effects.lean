import AchievementLang.Eval.Reduce
import AchievementLang.Proofs.Eval.Triple

/-!
# What the functions of the language change

The functions of the language change the state in two ways: they record events, and they add an
achievement or a leaderboard to the registry. A relation between states that permits these steps
(`Eval.Permits`) therefore holds between any state and the one in which a call ends, whatever the
arguments and whether or not it fails (`Eval.Leads`).
-/

namespace AchievementLang

namespace Eval

variable {α β : Type} {R : State → State → Prop}

/-- The relation permits any number of steps that record an event or register something. -/
structure Permits (R : State → State → Prop) : Prop where
  refl : ∀ s, R s s
  trans : ∀ {s s' s''}, R s s' → R s' s'' → R s s''
  event : ∀ (e : Event) (s : State), R s { s with events := e :: s.events }
  achievement : ∀ (x : Achievement) {s : State} {r : Registry}, s.registry = some r →
    R s { s with registry := some { r with achievements := r.achievements ++ [x] } }
  leaderboard : ∀ (x : Leaderboard) {s : State} {r : Registry}, s.registry = some r →
    R s { s with registry := some { r with leaderboards := r.leaderboards ++ [x] } }

/-- The relation holds between every state and the one in which the evaluation ends. -/
def Leads (R : State → State → Prop) (x : Eval α) : Prop := ∀ s, R s (x.run s).2

namespace Permits

theorem leads_pure (hR : Permits R) (a : α) : Leads R (pure a) := hR.refl

theorem leads_fail (hR : Permits R) (cause : Cause) (loc : Option Loc) :
    Leads R (fail cause loc : Eval α) :=
  hR.refl

theorem leads_function? (hR : Permits R) (name : String) : Leads R (function? name) := hR.refl

theorem leads_record (hR : Permits R) (e : Event) : Leads R (record e) := hR.event e

theorem leads_compiled (hR : Permits R) (compile : FunctionTable → Except Failure α) :
    Leads R (compiled compile) :=
  hR.refl

/-- Where nothing can be registered, the state stays as it is. -/
theorem leads_register (hR : Permits R) {change : Registry → Registry}
    (h : ∀ {s : State} {r}, s.registry = some r → R s { s with registry := some (change r) }) :
    Leads R (register change) := by
  intro s
  cases hr : s.registry with
  | some r =>
    rw [run_register change hr]
    exact h hr
  | none =>
    obtain ⟨functions, registry, events⟩ := s
    cases hr
    exact hR.refl _

theorem leads_bind (hR : Permits R) {x : Eval α} {f : α → Eval β} (hx : Leads R x)
    (hf : ∀ a, Leads R (f a)) : Leads R (x >>= f) := by
  intro s
  have h := hx s
  rw [run_bind]
  generalize x.run s = r at h
  obtain ⟨_ | a, s'⟩ := r
  · exact h
  · exact hR.trans h (hf a s')

theorem leads_mapM (hR : Permits R) {f : α → Eval β} (hf : ∀ a, Leads R (f a)) (as : List α) :
    Leads R (as.mapM f) := by
  induction as with
  | nil => exact hR.leads_pure _
  | cons a as ih =>
    rw [List.mapM_cons]
    exact hR.leads_bind (hf a) fun b => hR.leads_bind ih fun bs => hR.leads_pure _

theorem leads_conditionText (hR : Permits R) (e : Expr) : Leads R (conditionText e) :=
  hR.leads_bind (hR.leads_record _) fun _ => hR.leads_bind (hR.leads_compiled _) fun text =>
    hR.leads_bind (hR.leads_record _) fun _ => hR.leads_pure text

theorem leads_valueText (hR : Permits R) (e : Expr) : Leads R (valueText e) :=
  hR.leads_bind (hR.leads_record _) fun _ => hR.leads_bind (hR.leads_compiled _) fun text =>
    hR.leads_bind (hR.leads_record _) fun _ => hR.leads_pure text

variable (hR : Permits R) (a : Activation)
include hR

/-! ## Arguments -/

theorem leads_param (x : String) : Leads R (a.param x) := by
  unfold Activation.param
  split
  · exact hR.leads_pure _
  · exact hR.leads_fail _ _

theorem leads_string (x : String) : Leads R (a.string x) := by
  refine hR.leads_bind (hR.leads_param a x) fun e => ?_
  split
  · exact hR.leads_pure _
  · exact hR.leads_fail _ _

theorem leads_integer (x : String) : Leads R (a.integer x) := by
  refine hR.leads_bind (hR.leads_param a x) fun e => ?_
  split
  · exact hR.leads_pure _
  · exact hR.leads_fail _ _

/-! ## Conditions and memory reads -/

theorem leads_accessor : Leads R a.accessor := by
  refine hR.leads_bind (hR.leads_integer a "address") fun ⟨n, l⟩ => ?_
  dsimp only
  split
  · exact hR.leads_pure _
  · exact hR.leads_fail _ _

theorem leads_bit : Leads R a.bit := by
  refine hR.leads_bind (hR.leads_integer a "index") fun ⟨n, l⟩ => ?_
  dsimp only
  split
  · exact hR.leads_bind (hR.leads_integer a "address") fun ⟨n, l⟩ => hR.leads_pure _
  · exact hR.leads_fail _ _

theorem leads_prev : Leads R a.prev := by
  refine hR.leads_bind (hR.leads_param a "accessor") fun e => ?_
  split
  next name args l =>
    refine hR.leads_bind (hR.leads_function? name) fun f => ?_
    split
    · exact hR.leads_pure _
    · exact hR.leads_fail _ _
  next => exact hR.leads_fail _ _

theorem leads_repeated : Leads R a.repeated := by
  refine hR.leads_bind (hR.leads_integer a "count") fun ⟨n, l⟩ => ?_
  dsimp only
  split
  · exact hR.leads_fail _ _
  · exact hR.leads_bind (hR.leads_param a "comparison") fun e => hR.leads_pure _

theorem leads_around : Leads R a.around :=
  hR.leads_bind (hR.leads_param a "comparison") fun _ => hR.leads_pure _

/-! ## Achievements and leaderboards -/

theorem leads_registerAchievement : Leads R a.registerAchievement := by
  refine hR.leads_bind (hR.leads_string a "title") fun ⟨title, _⟩ => ?_
  refine hR.leads_bind (hR.leads_string a "description") fun ⟨description, _⟩ => ?_
  refine hR.leads_bind (hR.leads_integer a "points") fun ⟨points, loc⟩ => ?_
  dsimp only
  split
  · exact hR.refl
  · refine hR.leads_bind (hR.leads_param a "trigger") fun e => ?_
    refine hR.leads_bind (hR.leads_record _) fun _ => ?_
    refine hR.leads_bind (hR.leads_compiled _) fun trigger => ?_
    refine hR.leads_bind (hR.leads_integer a "id") fun ⟨id, _⟩ => ?_
    exact hR.leads_bind (hR.leads_register (hR.achievement _)) fun _ => hR.leads_record _

theorem leads_alternatives (e : Expr) : Leads R (Activation.alternatives e) := by
  unfold Activation.alternatives
  split
  next name args l =>
    refine hR.leads_bind (hR.leads_function? name) fun f => ?_
    split <;> exact hR.leads_pure _
  next => exact hR.leads_pure _

theorem leads_registerLeaderboard : Leads R a.registerLeaderboard := by
  refine hR.leads_bind (hR.leads_string a "title") fun ⟨title, _⟩ => ?_
  refine hR.leads_bind (hR.leads_string a "description") fun ⟨description, _⟩ => ?_
  refine hR.leads_bind (hR.leads_param a "start") fun _ => ?_
  refine hR.leads_bind (hR.leads_conditionText _) fun start => ?_
  refine hR.leads_bind (hR.leads_param a "cancel") fun _ => ?_
  refine hR.leads_bind (hR.leads_conditionText _) fun cancel => ?_
  refine hR.leads_bind (hR.leads_param a "submit") fun _ => ?_
  refine hR.leads_bind (hR.leads_conditionText _) fun submit => ?_
  refine hR.leads_bind (hR.leads_param a "value") fun e => ?_
  refine hR.leads_bind (hR.leads_alternatives e) fun es => ?_
  refine hR.leads_bind (hR.leads_mapM hR.leads_valueText es) fun values => ?_
  refine hR.leads_bind (hR.leads_string a "format") fun ⟨format, _⟩ => ?_
  dsimp only
  split
  · exact hR.leads_fail _ _
  · exact hR.leads_bind (hR.leads_register (hR.leaderboard _)) fun _ => hR.leads_record _

end Permits

end Eval

end AchievementLang

import AchievementLang.Eval.State
import Mathlib.Data.List.Forall2

/-!
# Specifications of evaluations

`Eval.Meets P x Q E` specifies an evaluation from the states with `P`: if it comes to a value, `Q`
holds of the value and the state it leaves, and if it fails, `E` holds of the failure and the state
in which it arose. A failure leaves the state as it is, so both outcomes have a state to speak of.

There is one rule for each way in which evaluations are put together (`meets_pure`, `Meets.bind`,
`meets_fail`, `meets_foldlM`, `meets_mapM`), and what each access to the state does is said by a
`run_` lemma. What changes nothing has a specification of its own (`Eval.Inspects`), which fits
every state, and so has what keeps an invariant (`Eval.Upholds`).
-/

namespace AchievementLang.Eval

variable {α β : Type} {P P' : State → Prop} {Q Q' : α → State → Prop}
  {E E' : Failure → State → Prop}

/-- What is required of the outcome of an evaluation. -/
def Ends (Q : α → State → Prop) (E : Failure → State → Prop) : Except Failure α × State → Prop
  | (.ok a, s) => Q a s
  | (.error f, s) => E f s

/-- From every state with `P` the evaluation ends with `Q`, or fails with `E`. -/
def Meets (P : State → Prop) (x : Eval α) (Q : α → State → Prop)
    (E : Failure → State → Prop) : Prop :=
  ∀ s, P s → Ends Q E (x.run s)

theorem Ends.mono {r : Except Failure α × State} (h : Ends Q E r) (hQ : ∀ a s, Q a s → Q' a s)
    (hE : ∀ f s, E f s → E' f s) : Ends Q' E' r := by
  obtain ⟨_ | a, s⟩ := r
  · exact hE _ s h
  · exact hQ a s h

theorem Meets.mono {x : Eval α} (h : Meets P x Q E) (hP : ∀ s, P' s → P s)
    (hQ : ∀ a s, Q a s → Q' a s) (hE : ∀ f s, E f s → E' f s) : Meets P' x Q' E' :=
  fun s hs => (h s (hP s hs)).mono hQ hE

theorem Meets.post {x : Eval α} (h : Meets P x Q E) (hQ : ∀ a s, Q a s → Q' a s) :
    Meets P x Q' E :=
  h.mono (fun _ => id) hQ fun _ _ => id

/-! ## Composition -/

theorem meets_pure {a : α} (h : ∀ s, P s → Q a s) : Meets P (pure a) Q E := h

theorem run_bind (x : Eval α) (f : α → Eval β) (s : State) :
    (x >>= f).run s =
      match x.run s with
      | (.ok a, s') => (f a).run s'
      | (.error e, s') => (.error e, s') := by
  change (ExceptT.bind x f).run s = _
  simp only [ExceptT.bind, ExceptT.mk, ExceptT.run]
  change StateT.bind x _ s = _
  simp only [StateT.bind]
  cases h : x s with
  | mk r s' => cases r <;> rfl

/-- What follows goes on from where the first part ends. -/
theorem Meets.bind {R : β → State → Prop} {x : Eval α} {f : α → Eval β} (hx : Meets P x Q E)
    (hf : ∀ a, Meets (Q a) (f a) R E) : Meets P (x >>= f) R E := by
  intro s hs
  have h := hx s hs
  rw [run_bind]
  generalize x.run s = r at h
  obtain ⟨_ | a, s'⟩ := r
  · exact h
  · exact hf a s' h

theorem meets_fail {cause : Cause} {loc : Option Loc} (h : ∀ s, P s → E (.at? cause loc) s) :
    Meets P (fail cause loc) Q E := h

/-! ## Evaluations that change nothing -/

/-- The evaluation leaves the state as it is. Its value satisfies `Q`, if it does not fail with an
error of the script. -/
def Inspects (x : Eval α) (Q : α → Prop) : Prop :=
  ∀ s, (∃ a, x.run s = (.ok a, s) ∧ Q a) ∨ ∃ f, x.run s = (.error (.fault f), s)

section Inspects

variable {S : α → Prop} {T : β → Prop}

theorem inspects_pure {a : α} (h : S a) : Inspects (pure a) S := fun _ => .inl ⟨a, rfl, h⟩

theorem inspects_fail (cause : Cause) (loc : Option Loc) : Inspects (fail cause loc) S :=
  fun _ => .inr ⟨⟨cause, loc⟩, rfl⟩

theorem Inspects.bind {x : Eval α} {f : α → Eval β} (hx : Inspects x S)
    (hf : ∀ a, S a → Inspects (f a) T) : Inspects (x >>= f) T := by
  intro s
  rw [run_bind]
  obtain ⟨a, hrun, ha⟩ | ⟨f, hrun⟩ := hx s
  · rw [hrun]
    exact hf a ha s
  · rw [hrun]
    exact .inr ⟨f, rfl⟩

theorem Inspects.meets {x : Eval α} (hx : Inspects x S) (hE : ∀ f s, P s → E (.fault f) s) :
    Meets P x (fun a s => P s ∧ S a) E := by
  intro s hs
  obtain ⟨a, hrun, ha⟩ | ⟨f, hrun⟩ := hx s
  · rw [hrun]
    exact ⟨hs, ha⟩
  · rw [hrun]
    exact hE f s hs

/-- What follows on an inspection goes on in the same state. -/
theorem Inspects.meets_bind {R : β → State → Prop} {x : Eval α} {f : α → Eval β}
    (hx : Inspects x S) (hE : ∀ f s, P s → E (.fault f) s)
    (hf : ∀ a, S a → Meets P (f a) R E) : Meets P (x >>= f) R E :=
  (hx.meets hE).bind fun a s hs => hf a hs.2 s hs.1

end Inspects

/-! ## Lists -/

/-- What each step of a fold keeps holds of its end. -/
theorem meets_foldlM {R : β → State → Prop} {f : β → α → Eval β} {as : List α}
    (hf : ∀ a ∈ as, ∀ b, Meets (R b) (f b a) R E) (b : β) : Meets (R b) (as.foldlM f b) R E := by
  induction as generalizing b with
  | nil => exact meets_pure fun _ => id
  | cons a as ih =>
    rw [List.foldlM_cons]
    exact (hf a (by simp) b).bind fun b' => ih (fun a ha => hf a (by simp [ha])) b'

/-- What holds of each result holds of the list of the results. -/
theorem meets_mapM {I : State → Prop} {r : α → β → Prop} {f : α → Eval β} {as : List α}
    (hf : ∀ a ∈ as, Meets I (f a) (fun b s => I s ∧ r a b) E) :
    Meets I (as.mapM f) (fun bs s => I s ∧ List.Forall₂ r as bs) E := by
  induction as with
  | nil => exact meets_pure fun s hs => ⟨hs, .nil⟩
  | cons a as ih =>
    rw [List.mapM_cons]
    refine (hf a (by simp)).bind fun b s hs => ?_
    refine (ih fun a ha => hf a (by simp [ha])).bind ?_ s hs.1
    exact fun bs => meets_pure fun s' hs' => ⟨hs'.1, .cons hs.2 hs'.2⟩

/-! ## Invariants -/

/-- The evaluation keeps the invariant, and its value satisfies `S`. -/
def Upholds (I : State → Prop) (E : Failure → State → Prop) (x : Eval α) (S : α → Prop) : Prop :=
  Meets I x (fun a s => I s ∧ S a) E

section Upholds

variable {I : State → Prop} {S S' : α → Prop} {T : β → Prop}

theorem upholds_pure {a : α} (h : S a) : Upholds I E (pure a) S := meets_pure fun _ hs => ⟨hs, h⟩

theorem Upholds.bind {x : Eval α} {f : α → Eval β} (hx : Upholds I E x S)
    (hf : ∀ a, S a → Upholds I E (f a) T) : Upholds I E (x >>= f) T :=
  Meets.bind hx fun a s hs => hf a hs.2 s hs.1

theorem Upholds.mono {x : Eval α} (hx : Upholds I E x S) (h : ∀ a, S a → S' a) :
    Upholds I E x S' :=
  Meets.post hx fun a _ hs => ⟨hs.1, h a hs.2⟩

theorem upholds_foldlM {f : β → α → Eval β} {as : List α} {b : β} (hb : T b)
    (hf : ∀ a ∈ as, ∀ b, T b → Upholds I E (f b a) T) : Upholds I E (as.foldlM f b) T := by
  have h : Meets (fun s => I s ∧ T b) (as.foldlM f b) (fun b s => I s ∧ T b) E :=
    meets_foldlM (R := fun b s => I s ∧ T b) (fun a ha b s hs => hf a ha b hs.2 s hs.1) b
  exact fun s hs => h s ⟨hs, hb⟩

theorem upholds_mapM {r : α → β → Prop} {f : α → Eval β} {as : List α}
    (hf : ∀ a ∈ as, Upholds I E (f a) (r a)) : Upholds I E (as.mapM f) (List.Forall₂ r as) :=
  meets_mapM hf

end Upholds

/-! ## The state -/

theorem run_run (x : Eval α) (s : State) : StateT.run (ExceptT.run x) s = x.run s := rfl

theorem run_function? (name : String) (s : State) :
    (function? name).run s = (.ok (s.functions.get? name), s) := rfl

theorem run_compiled (compile : FunctionTable → Except Failure α) (s : State) :
    (compiled compile).run s = (compile s.functions, s) := rfl

theorem run_register (change : Registry → Registry) {s : State} {r : Registry}
    (h : s.registry = some r) :
    (register change).run s = (.ok (), { s with registry := some (change r) }) := by
  obtain ⟨functions, registry, events⟩ := s
  cases h
  rfl

end AchievementLang.Eval

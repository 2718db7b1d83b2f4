import AchievementLang.Proofs.Eval.InPlace
import AchievementLang.Proofs.Eval.Registered

/-!
# Evaluation in a store, step by step

Evaluation with variables set in place does what evaluation does on the scopes as values. On the way
all scopes stay as they are that were there before, but for the one in which it runs statements, and
all that was registered stays registered.

`StoreEval.Mimics w σ R x y` says so of a part `x` of the one evaluation that starts in the store
`σ`, and the part `y` of the other that it goes with: they come to values related by `R` or to the
same failure, in the same state, and the store has grown from `σ` with variables set at `w` at most.
There is one rule for each way in which evaluations are put together. A call makes a new scope, and
sets variables there only (`StoreEval.mimics_create`), so for who calls nothing has changed.

This is no `Comparison` of two evaluations: the parts that go together are different programs, over
different states, and what each of them does to the store depends on the store that the one before
has left. What both make of what is there, once it has been read, is the same program, and is not
looked at again (`StoreActivation.Mimics.read`).
-/

namespace AchievementLang

open Eval

/-- What the registry has held is still in it, in front of what is new. -/
structure State.Keeps (s s' : State) : Prop where
  none : s.registry = none → s'.registry = none
  some : ∀ {r}, s.registry = some r → ∃ r', s'.registry = some r' ∧ r.IsPrefix r'

theorem Registry.IsPrefix.trans {r r' r'' : Registry} (h : r.IsPrefix r') (h' : r'.IsPrefix r'') :
    r.IsPrefix r'' :=
  ⟨h.achievements.trans h'.achievements, h.leaderboards.trans h'.leaderboards⟩

namespace State

variable {s s' s'' : State}

/-- What leaves the registry alone keeps it. -/
theorem keeps_of_eq (h : s'.registry = s.registry) : s.Keeps s' :=
  ⟨fun hs => h.trans hs, fun hs => ⟨_, h.trans hs, .refl _⟩⟩

theorem Keeps.refl (s : State) : s.Keeps s := keeps_of_eq rfl

theorem Keeps.trans (h : s.Keeps s') (h' : s'.Keeps s'') : s.Keeps s'' := by
  refine ⟨fun hs => h'.none (h.none hs), fun hs => ?_⟩
  obtain ⟨r', hr', hfront⟩ := h.some hs
  obtain ⟨r'', hr'', hfront'⟩ := h'.some hr'
  exact ⟨r'', hr'', hfront.trans hfront'⟩

/-- All that the functions of the language do to the state keeps what the registry holds. -/
theorem permits_keeps : Permits State.Keeps where
  refl := .refl
  trans := .trans
  event _ _ := keeps_of_eq rfl
  achievement x s r hr :=
    ⟨fun hs => absurd (hr.symm.trans hs) nofun, fun hs => ⟨_, rfl, by
      cases hr.symm.trans hs
      exact (Registry.IsPrefix.refl r).achievement x⟩⟩
  leaderboard x s r hr :=
    ⟨fun hs => absurd (hr.symm.trans hs) nofun, fun hs => ⟨_, rfl, by
      cases hr.symm.trans hs
      exact (Registry.IsPrefix.refl r).leaderboard x⟩⟩

end State

open State

namespace StoreEval

variable {α β γ δ : Type} {w : Option Nat} {σ : Store} {R : Store → α → β → Prop}
  {T : Store → γ → δ → Prop}

/-! ## Outcomes -/

/-- How two outcomes compare of evaluations from the state `s` and, in the one, the store `σ`. -/
inductive Tallies (w : Option Nat) (s : State) (σ : Store) (R : Store → α → β → Prop) :
    Except Failure α × (State × Store) → Except Failure β × State → Prop
  | value {σ' : Store} {s' : State} {a : α} {b : β} (h : R σ' a b) (hσ : σ.Grows w σ')
      (hs : s.Keeps s') : Tallies w s σ R (.ok a, (s', σ')) (.ok b, s')
  | failure {σ' : Store} {s' : State} (f : Failure) (hσ : σ.Grows w σ') (hs : s.Keeps s') :
      Tallies w s σ R (.error f, (s', σ')) (.error f, s')

namespace Tallies

variable {s : State} {p : Except Failure α × (State × Store)} {q : Except Failure β × State}

/-- What has grown on the way has grown. -/
theorem of_grows {s' : State} {σ' : Store} (h : Tallies w s' σ' R p q) (hσ : σ.Grows w σ')
    (hs : s.Keeps s') : Tallies w s σ R p q := by
  cases h with
  | value hab hσ' hs' => exact .value hab (hσ.trans hσ') (hs.trans hs')
  | failure e hσ' hs' => exact .failure e (hσ.trans hσ') (hs.trans hs')

theorem of_none (h : Tallies none s σ R p q) (w : Option Nat) : Tallies w s σ R p q := by
  cases h with
  | value hab hσ hs => exact .value hab (hσ.of_none w) hs
  | failure e hσ hs => exact .failure e (hσ.of_none w) hs

/-- What is set at an address that was not there leaves all scopes as they are. -/
theorem of_fresh {n : Nat} (h : Tallies (some n) s σ R p q) (hn : σ.length ≤ n) :
    Tallies none s σ R p q := by
  cases h with
  | value hab hσ hs => exact .value hab (hσ.of_fresh hn) hs
  | failure e hσ hs => exact .failure e (hσ.of_fresh hn) hs

end Tallies

/-! ## Composition -/

/-- The evaluation in the store does what the other does, and sets variables at `w` at most. -/
def Mimics (w : Option Nat) (σ : Store) (R : Store → α → β → Prop) (x : StoreEval α)
    (y : Eval β) : Prop :=
  ∀ s, Tallies w s σ R (x.run (s, σ)) (y.run s)

/-- The values are the same. -/
def Equal (_ : Store) (a b : α) : Prop := a = b

theorem run_bind (x : StoreEval α) (f : α → StoreEval γ) (p : State × Store) :
    (x >>= f).run p =
      match x.run p with
      | (.ok a, p') => (f a).run p'
      | (.error e, p') => (.error e, p') := by
  change (ExceptT.bind x f).run p = _
  simp only [ExceptT.bind, ExceptT.mk, ExceptT.run]
  change StateT.bind x _ p = _
  simp only [StateT.bind]
  cases h : x p with
  | mk r p' => cases r <;> rfl

theorem mimics_pure (hσ : σ.WellFormed) {a : α} {b : β} (h : R σ a b) :
    Mimics w σ R (pure a) (pure b) :=
  fun s => .value h (.refl hσ w) (.refl s)

theorem mimics_fail (hσ : σ.WellFormed) (cause : Cause) (loc : Option Loc) :
    Mimics w σ R (fail cause loc) (Eval.fail cause loc) :=
  fun s => .failure _ (.refl hσ w) (.refl s)

/-- What has nothing to do with the store leaves it as it is. -/
theorem mimics_ofEval (hσ : σ.WellFormed) {x : Eval α} (hx : Leads State.Keeps x) :
    Mimics w σ Equal (ofEval x) x := by
  intro s
  have hs := hx s
  change Tallies w s σ Equal ((x.run s).1, ((x.run s).2, σ)) (x.run s)
  generalize x.run s = r at hs
  obtain ⟨_ | a, s'⟩ := r
  · exact .failure _ (.refl hσ w) hs
  · exact .value rfl (.refl hσ w) hs

theorem Mimics.bind {x : StoreEval α} {y : Eval β} {f : α → StoreEval γ} {g : β → Eval δ}
    (hxy : Mimics w σ R x y)
    (hfg : ∀ σ' a b, σ.Grows w σ' → R σ' a b → Mimics w σ' T (f a) (g b)) :
    Mimics w σ T (x >>= f) (y >>= g) := by
  intro s
  have h := hxy s
  rw [run_bind, Eval.run_bind]
  generalize x.run (s, σ) = r, y.run s = r' at h
  cases h with
  | value hab hσ hs => exact (hfg _ _ _ hσ hab _).of_grows hσ hs
  | failure e hσ hs => exact .failure e hσ hs

/-- What follows on such an evaluation goes on in the same store. -/
theorem mimics_ofEval_bind (hσ : σ.WellFormed) {x : Eval α} (hx : Leads State.Keeps x)
    {f : α → StoreEval γ} {g : α → Eval δ} (h : ∀ a, Mimics w σ T (f a) (g a)) :
    Mimics w σ T (ofEval x >>= f) (x >>= g) := by
  intro s
  have hs := hx s
  rw [run_bind, Eval.run_bind]
  change Tallies w s σ T (match ((x.run s).1, ((x.run s).2, σ)) with
    | (.ok a, p') => (f a).run p'
    | (.error e, p') => (.error e, p')) _
  generalize x.run s = p at hs
  obtain ⟨_ | a, s'⟩ := p
  · exact .failure _ (.refl hσ w) hs
  · exact (h a s').of_grows (.refl hσ w) hs

/-- Evaluation goes on with what the store is now. -/
theorem mimics_store {f : Store → StoreEval α} {y : Eval β} (h : Mimics w σ R (f σ) y) :
    Mimics w σ R (store >>= f) y := by
  intro s
  rw [run_bind]
  exact h s

/-- After a variable has been set, evaluation goes on in the new store. -/
theorem mimics_define (hσ : σ.WellFormed) {r : Nat} {x : String} {v : Expr}
    {f : Unit → StoreEval α} {y : Eval β}
    (h : Mimics (some r) (σ.define r x v) R (f ()) y) :
    Mimics (some r) σ R (define r x v >>= f) y := by
  intro s
  rw [run_bind]
  exact (h s).of_grows (Store.grows_define hσ r x v) (.refl s)

/-- What sets no variables is permitted to. -/
theorem Mimics.of_none {x : StoreEval α} {y : Eval β} (h : Mimics none σ R x y) (w : Option Nat) :
    Mimics w σ R x y :=
  fun s => (h s).of_none w

/-- What goes on at an address that was not there leaves all scopes as they are. -/
theorem Mimics.bind_fresh {x : StoreEval α} {y : Eval β} {f : α → StoreEval γ} {g : β → Eval δ}
    (hxy : Mimics none σ R x y)
    (hfg : ∀ σ' a b, R σ' a b → ∃ n, σ.length ≤ n ∧ Mimics (some n) σ' T (f a) (g b)) :
    Mimics none σ T (x >>= f) (y >>= g) := by
  intro s
  have h := hxy s
  rw [run_bind, Eval.run_bind]
  generalize x.run (s, σ) = p, y.run s = q at h
  cases h with
  | value hab hσ hs =>
    obtain ⟨n, hn, hfg⟩ := hfg _ _ _ hab
    exact ((hfg _).of_grows (hσ.of_none _) hs).of_fresh hn
  | failure e hσ hs => exact .failure e hσ hs

/-- What sets no variables is permitted to, and what it comes to finds them as they were. -/
theorem Mimics.grows {x : StoreEval α} {y : Eval β} (h : Mimics none σ R x y) (w : Option Nat) :
    Mimics w σ (fun σ' a b => R σ' a b ∧ σ.Grows none σ') x y := by
  intro s
  have hs := h s
  generalize x.run (s, σ) = p, y.run s = q at hs
  cases hs with
  | value hab hσ hs => exact .value ⟨hab, hσ⟩ (hσ.of_none w) hs
  | failure e hσ hs => exact .failure e (hσ.of_none w) hs

/-- A function is called in a scope of its own, so nothing that is there is set by it. -/
theorem mimics_create (hσ : σ.WellFormed) {r : Nat} (hr : r < σ.length) {f : Nat → StoreEval α}
    {y : Eval β} (h : Mimics (some σ.length) (σ ++ [σ.callee r]) R (f σ.length) y) :
    Mimics none σ R (create (σ.callee r) >>= f) y := by
  intro s
  rw [run_bind]
  exact ((h s).of_grows ((Store.grows_callee hσ hr).of_none _) (.refl s)).of_fresh le_rfl

theorem mimics_foldlM {f : α → γ → StoreEval α} {g : β → δ → Eval β} {cs : List γ} {ds : List δ}
    {U : γ → δ → Prop} (hcds : List.Forall₂ U cs ds)
    (hfg : ∀ σ' a b c d, σ.Grows w σ' → R σ' a b → U c d → Mimics w σ' R (f a c) (g b d))
    (hσ : σ.WellFormed) {a : α} {b : β} (hab : R σ a b) :
    Mimics w σ R (cs.foldlM f a) (ds.foldlM g b) := by
  induction hcds generalizing σ a b with
  | nil => exact mimics_pure hσ hab
  | cons hcd _ ih =>
    rw [List.foldlM_cons, List.foldlM_cons]
    refine (hfg _ _ _ _ _ (.refl hσ w) hab hcd).bind fun σ' a' b' hσ' hab' => ?_
    exact ih (fun σ'' a b c d hσ'' => hfg σ'' a b c d (hσ'.trans hσ'')) hσ'.wellFormed hab'

theorem mimics_mapM {f : α → StoreEval γ} {g : β → Eval γ} {as : List α} {bs : List β}
    {U : α → β → Prop} (habs : List.Forall₂ U as bs)
    (hfg : ∀ σ' a b, σ.Grows w σ' → U a b → Mimics w σ' Equal (f a) (g b)) (hσ : σ.WellFormed) :
    Mimics w σ Equal (as.mapM f) (bs.mapM g) := by
  induction habs generalizing σ with
  | nil => exact mimics_pure hσ rfl
  | cons hab _ ih =>
    rw [List.mapM_cons, List.mapM_cons]
    refine (hfg _ _ _ (.refl hσ w) hab).bind fun σ' c c' hσ' hc => ?_
    refine (ih (fun σ'' a b hσ'' => hfg σ'' a b (hσ'.trans hσ'')) hσ'.wellFormed).bind
      fun σ'' cs cs' hσ'' hcs => ?_
    cases hc
    cases hcs
    exact mimics_pure hσ''.wellFormed rfl

end StoreEval

open StoreEval

/-! ## Binding -/

variable {σ σ' : Store} {r : Nat}

/-- The arguments were written alike, and wherever the store has grown, evaluating the one does what
evaluating the other does. -/
structure StoreArgument.Mimics (σ : Store) (a : StoreArgument) (b : Argument) : Prop where
  label : a.label = b.label
  source : a.source = b.source
  loc : a.loc = b.loc
  reduce : ∀ σ', σ.Grows none σ' → StoreEval.Mimics none σ' Equal a.reduce b.reduce

theorem StoreArgument.map_source_eq {as : List StoreArgument} {bs : List Argument}
    (h : List.Forall₂ (StoreArgument.Mimics σ) as bs) :
    as.map (·.source) = bs.map (·.source) := by
  induction h with
  | nil => rfl
  | cons hab _ ih => rw [List.map_cons, List.map_cons, hab.source, ih]

namespace StoreActivation

/-- The scope at an address, which was made after the store `σ₀`, is the one that is given, and all
that was in that store is as it was. -/
structure Made (σ₀ : Store) (r : Nat) (σ : Store) (scope : Scope) : Prop
    extends σ.Shows r scope where
  grows : σ₀.Grows none σ
  fresh : σ₀.length ≤ r

/-- The same has been bound at the address of the function. -/
structure Progress.Mimics (σ₀ : Store) (r : Nat) (σ : Store) (p : Progress)
    (q : Activation.Progress) : Prop where
  made : Made σ₀ r σ q.scope
  next : p.next = q.next
  labelled : p.labelled = q.labelled
  surplus : List.Forall₂ (StoreArgument.Mimics σ₀) p.surplus q.surplus

/-- The same function has been called alike. -/
structure Mimics (σ₀ : Store) (σ : Store) (a : StoreActivation) (b : Activation) : Prop where
  made : Made σ₀ a.scope σ b.scope
  function : a.function = b.function
  loc : a.loc = b.loc
  surplus : List.Forall₂ (StoreArgument.Mimics σ₀) a.surplus b.surplus

theorem Made.mono {σ₀ : Store} {scope : Scope} (h : Made σ₀ r σ scope) (hσ : σ.Grows none σ') :
    Made σ₀ r σ' scope :=
  ⟨h.toShows.mono hσ, h.grows.trans hσ, h.fresh⟩

section Binding

variable {σ₀ : Store} {scope : Scope} {f : Function} {p : Progress} {q : Activation.Progress}
  {a : StoreArgument} {b : Argument}

theorem Made.define (h : Made σ₀ r σ scope) (x : String) (v : Expr) :
    Made σ₀ r (σ.define r x v) (scope.define x v) :=
  ⟨h.toShows.define x v, ((h.grows.of_none _).trans
    (Store.grows_define h.wellFormed r x v)).of_fresh h.fresh, h.fresh⟩

/-- What is evaluated is set at the address of the function. -/
theorem Made.mimics_define {α β : Type} {R : Store → α → β → Prop} (h : Made σ₀ r σ scope)
    {e : StoreEval Expr} {e' : Eval Expr} (he : StoreEval.Mimics none σ Equal e e') (x : String)
    {k : Unit → StoreEval α} {k' : Expr → Eval β}
    (hk : ∀ σ' v, Made σ₀ r σ' (scope.define x v) →
      StoreEval.Mimics (some r) σ' R (k ()) (k' v)) :
    StoreEval.Mimics (some r) σ R (e >>= fun v => StoreEval.define r x v >>= k) (e' >>= k') := by
  refine (he.grows _).bind fun σ' v v' _ ⟨hv, hσ'⟩ => ?_
  cases hv
  have hmade := h.mono hσ'
  exact StoreEval.mimics_define hmade.wellFormed (hk _ v (hmade.define x v))

theorem mimics_bindNamed (h : Progress.Mimics σ₀ r σ p q) (hab : a.Mimics σ₀ b) (x : String) :
    StoreEval.Mimics (some r) σ (Progress.Mimics σ₀ r) (bindNamed f r p x a)
      (Activation.bindNamed f q x b) := by
  unfold bindNamed Activation.bindNamed
  rw [hab.loc]
  split
  · exact mimics_fail h.made.wellFormed _ _
  refine mimics_store ?_
  rw [h.made.frame_eq]
  split
  · exact mimics_fail h.made.wellFormed _ _
  refine h.made.mimics_define (hab.reduce σ h.made.grows) x fun σ' v hmade => ?_
  exact mimics_pure hmade.wellFormed ⟨hmade, h.next, rfl, h.surplus⟩

theorem mimics_bindNext (h : Progress.Mimics σ₀ r σ p q) (hab : a.Mimics σ₀ b) :
    StoreEval.Mimics (some r) σ (Progress.Mimics σ₀ r) (bindNext f r p a)
      (Activation.bindNext f q b) := by
  unfold bindNext Activation.bindNext
  rw [h.labelled, h.next, hab.loc]
  split
  · exact mimics_fail h.made.wellFormed _ _
  cases q.next with
  | cons x rest =>
    refine h.made.mimics_define (hab.reduce σ h.made.grows) x fun σ' v hmade => ?_
    exact mimics_pure hmade.wellFormed ⟨hmade, rfl, rfl, h.surplus⟩
  | nil =>
    dsimp only
    split
    · refine mimics_pure h.made.wellFormed ⟨h.made, rfl, rfl, ?_⟩
      exact List.rel_append h.surplus (.cons hab .nil)
    · exact mimics_fail h.made.wellFormed _ _

theorem mimics_bindArgument (h : Progress.Mimics σ₀ r σ p q) (hab : a.Mimics σ₀ b) :
    StoreEval.Mimics (some r) σ (Progress.Mimics σ₀ r) (bindArgument f r p a)
      (Activation.bindArgument f q b) := by
  unfold bindArgument Activation.bindArgument
  rw [hab.label]
  cases b.label with
  | some x => exact mimics_bindNamed h hab x
  | none => exact mimics_bindNext h hab

variable {reduce : Nat → Expr → StoreEval Expr} {reduce' : Scope → Expr → Eval Expr}

/-- Evaluation at an address does what evaluation in the scope at that address does. -/
def Reduces (reduce : Nat → Expr → StoreEval Expr) (reduce' : Scope → Expr → Eval Expr) : Prop :=
  ∀ {σ r scope}, σ.Shows r scope → ∀ e,
    StoreEval.Mimics none σ Equal (reduce r e) (reduce' scope e)

theorem mimics_bindDefault (hreduce : Reduces reduce reduce') (h : Made σ₀ r σ scope)
    (loc : Option Loc) (x : String) :
    StoreEval.Mimics (some r) σ (fun σ' _ scope' => Made σ₀ r σ' scope')
      (bindDefault f reduce loc r x) (Activation.bindDefault f reduce' loc scope x) := by
  unfold bindDefault Activation.bindDefault
  refine mimics_store ?_
  rw [h.frame_eq]
  split
  · exact mimics_pure h.wellFormed h
  cases f.defaults.get? x with
  | none => exact mimics_fail h.wellFormed _ _
  | some e =>
    have hset : StoreEval.Mimics (some r) σ (fun σ' _ scope' => Made σ₀ r σ' scope')
        (reduce r e >>= fun v => StoreEval.define r x v >>= pure)
        (reduce' scope e >>= fun v => pure (scope.define x v)) :=
      h.mimics_define (hreduce h.toShows e) x fun σ' v hmade => mimics_pure hmade.wellFormed hmade
    simpa only [bind_pure] using hset

theorem mimics_bindDefaults (hreduce : Reduces reduce reduce') (h : Made σ₀ r σ scope)
    (loc : Option Loc) (xs : List String) :
    StoreEval.Mimics (some r) σ (fun σ' _ scope' => Made σ₀ r σ' scope')
      (xs.forM (bindDefault f reduce loc r))
      (xs.foldlM (Activation.bindDefault f reduce' loc) scope) := by
  induction xs generalizing σ scope with
  | nil => exact mimics_pure h.wellFormed h
  | cons x rest ih =>
    rw [List.foldlM_cons]
    exact (mimics_bindDefault hreduce h loc x).bind fun σ' _ scope' _ hmade => ih hmade

/-- **Binding a call** at the address of the caller. -/
theorem mimics_bind (hreduce : Reduces reduce reduce') {caller : Nat} (h : σ.Shows caller scope)
    (loc : Option Loc) {as : List StoreArgument} {bs : List Argument}
    (habs : List.Forall₂ (StoreArgument.Mimics σ) as bs) :
    StoreEval.Mimics none σ (Mimics σ) (bind f reduce caller loc as)
      (Activation.bind f reduce' scope loc bs) := by
  unfold bind Activation.bind
  refine mimics_store (mimics_create h.wellFormed h.lt ?_)
  have hmade : Made σ σ.length (σ ++ [σ.callee caller]) scope.callee :=
    ⟨h.callee, Store.grows_callee h.wellFormed h.lt, le_rfl⟩
  have hstart : Progress.Mimics σ σ.length (σ ++ [σ.callee caller]) { next := f.fixed }
      { scope := scope.callee, next := f.fixed } := ⟨hmade, rfl, rfl, .nil⟩
  refine (mimics_foldlM habs (fun σ' p q a b _ hpq hab => mimics_bindArgument hpq hab)
    hmade.wellFormed hstart).bind fun σ' p q hσ' hpq => ?_
  refine (mimics_bindDefaults hreduce hpq.made loc f.fixed).bind fun σ'' _ scope hσ'' hmade => ?_
  unfold bindSurplus Activation.bindSurplus
  rw [StoreArgument.map_source_eq hpq.surplus]
  split
  · have hset := hmade.define surplusVariable (.array (q.surplus.map (·.source)) loc)
    exact StoreEval.mimics_define hmade.wellFormed
      (mimics_pure hset.wellFormed ⟨hset, rfl, rfl, hpq.surplus⟩)
  · exact mimics_pure hmade.wellFormed ⟨hmade, rfl, rfl, hpq.surplus⟩

end Binding

/-! ## Calls -/

section Functions

variable {σ₀ : Store} {a : StoreActivation} {b : Activation} {w : Option Nat}

/-- A function that does not look at surplus arguments is carried out on its parameters. -/
theorem Mimics.read {α : Type} (h : Mimics σ₀ σ a b) {x : Activation → Eval α}
    (hleads : Leads State.Keeps (x b)) (hx : ∀ surplus, x { b with surplus := surplus } = x b) :
    StoreEval.Mimics w σ Equal (a.read x) (x b) := by
  refine mimics_store ?_
  have hview : a.view σ = { b with surplus := [] } := by
    rw [view, h.function, h.made.view, h.loc]
  rw [hview, hx]
  exact mimics_ofEval h.made.wellFormed hleads

theorem Mimics.reducedSurplus (h : Mimics σ₀ σ a b) :
    StoreEval.Mimics none σ Equal a.reducedSurplus b.reducedSurplus :=
  mimics_mapM h.surplus
    (fun σ' _ _ hσ' hab => hab.reduce σ' (h.made.grows.trans hσ')) h.made.wellFormed

theorem Mimics.maxOf (h : Mimics σ₀ σ a b) :
    StoreEval.Mimics none σ Equal a.maxOf b.maxOf := by
  have hempty : a.surplus.isEmpty = b.surplus.isEmpty := by
    rw [Bool.eq_iff_iff, List.isEmpty_iff_length_eq_zero, List.isEmpty_iff_length_eq_zero,
      h.surplus.length_eq]
  unfold StoreActivation.maxOf Activation.maxOf
  rw [hempty, h.loc, h.function]
  split
  · exact mimics_fail h.made.wellFormed _ _
  · refine h.reducedSurplus.bind fun σ' vs ws hσ' hvs => ?_
    cases hvs
    exact mimics_pure hσ'.wellFormed rfl

end Functions

end StoreActivation

/-! ## Engines -/

/-- Evaluation one call deeper, at an address, does what it does in the scope at that address, and
statements set variables there at most. -/
structure StoreInner.Mimics (I : StoreInner) (i : Inner) : Prop where
  reduce : StoreActivation.Reduces I.reduce i.reduce
  run : ∀ {σ r scope}, σ.Shows r scope → ∀ body,
    StoreEval.Mimics (some r) σ Equal (I.run r body) (i.run scope body)

/-- All that the engines leave to others does the same. -/
structure StoreEngine.Mimics (M : StoreEngine) (m : Engine) : Prop where
  limit : M.limit = m.limit
  inner : Option.Rel StoreInner.Mimics M.inner m.inner
  restart : StoreActivation.Reduces M.restart m.restart

namespace StoreActivation

variable {M : StoreEngine} {m : Engine} {I : StoreInner} {i : Inner} {σ₀ : Store}
  {a : StoreActivation} {b : Activation}

theorem Mimics.runDeclared (hinner : I.Mimics i) (h : Mimics σ₀ σ a b) (d : Declaration) :
    StoreEval.Mimics (some a.scope) σ Equal (a.runDeclared I d) (b.runDeclared i d) := by
  unfold StoreActivation.runDeclared Activation.runDeclared
  rw [h.function]
  split
  · refine (h.reducedSurplus.grows (some a.scope)).bind fun σ' vs ws _ ⟨hvs, hσ'⟩ => ?_
    cases hvs
    have hmade := (h.made.mono hσ').define surplusVariable (.array vs b.loc)
    rw [h.loc]
    refine StoreEval.mimics_define hσ'.wellFormed ?_
    exact hinner.run hmade.toShows d.body
  · exact hinner.run h.made.toShows d.body

/-- The value of a call. -/
theorem Mimics.reduce (hm : M.Mimics m) (hinner : I.Mimics i) (h : Mimics σ₀ σ a b) :
    StoreEval.Mimics (some a.scope) σ Equal (a.reduce M I) (b.reduce m i) := by
  have hmax := h.maxOf.of_none (some a.scope)
  have hrun := h.runDeclared hinner
  have hwf := h.made.wellFormed
  unfold StoreActivation.reduce Activation.reduce
  rw [h.function]
  cases hf : b.function with
  | accessor => exact h.read (permits_keeps.leads_accessor b) fun _ => rfl
  | bit =>
    refine mimics_store ?_
    have hread : StoreEval.Mimics none σ Equal (a.read Activation.bit) b.bit :=
      h.read (permits_keeps.leads_bit b) fun _ => rfl
    refine (hread.grows (some a.scope)).bind fun σ' e e' _ ⟨he, hσ'⟩ => ?_
    cases he
    exact (hm.restart (h.made.toShows.root.mono hσ') e).of_none _
  | prev => exact h.read (permits_keeps.leads_prev b) fun _ => rfl
  | once => exact h.read (permits_keeps.leads_around b) fun _ => rfl
  | never => exact h.read (permits_keeps.leads_around b) fun _ => rfl
  | pausing => exact h.read (permits_keeps.leads_around b) fun _ => rfl
  | repeated => exact h.read (permits_keeps.leads_repeated b) fun _ => rfl
  | constant holds =>
    refine mimics_pure hwf ?_
    rw [Equal, h.loc, Activation.again, hf]
  | maxOf => exact hmax
  | declared d =>
    refine (hrun d).bind fun σ' v v' hσ' hv => ?_
    cases hv
    cases v with
    | some v => exact mimics_pure hσ'.wellFormed rfl
    | none =>
      dsimp only
      rw [h.loc]
      exact mimics_fail hσ'.wellFormed _ _
  | _ =>
    dsimp only
    rw [h.loc]
    exact mimics_fail hwf _ _

/-- The effect of a call. -/
theorem Mimics.evaluate (hm : M.Mimics m) (hinner : I.Mimics i) (h : Mimics σ₀ σ a b) :
    StoreEval.Mimics (some a.scope) σ Equal (a.evaluate M I) (b.evaluate m i) := by
  have hreduce := h.reduce hm hinner
  unfold StoreActivation.evaluate Activation.evaluate
  rw [h.function]
  cases b.function with
  | achievement =>
    refine h.read (permits_keeps.leads_registerAchievement b) fun _ => ?_
    simp only [Activation.registerAchievement, Activation.string, Activation.integer,
      Activation.param, Activation.line]
  | leaderboard =>
    refine h.read (permits_keeps.leads_registerLeaderboard b) fun _ => ?_
    simp only [Activation.registerLeaderboard, Activation.string, Activation.param,
      Activation.line]
  | declared d =>
    exact (h.runDeclared hinner d).bind fun σ' _ _ hσ' _ => mimics_pure hσ'.wellFormed rfl
  | _ => exact hreduce.bind fun σ' _ _ hσ' _ => mimics_pure hσ'.wellFormed rfl

end StoreActivation

namespace StoreEngine

variable {M : StoreEngine} {m : Engine} {scope : Scope}

theorem leads_resolve (name : String) (loc : Option Loc) :
    Leads State.Keeps (Engine.resolve name loc) := by
  refine permits_keeps.leads_bind (permits_keeps.leads_function? name) fun f => ?_
  split
  · exact permits_keeps.leads_pure _
  · exact permits_keeps.leads_fail _ _

theorem Mimics.enter (hm : M.Mimics m) (h : σ.Shows r scope) (name : String)
    {as : List StoreArgument} {bs : List Argument}
    (habs : List.Forall₂ (StoreArgument.Mimics σ) as bs) (loc : Option Loc) :
    StoreEval.Mimics none σ (fun σ' p q => p.1.Mimics q.1 ∧ p.2.Mimics σ σ' q.2)
      (M.enter r name as loc) (m.enter scope name bs loc) := by
  refine mimics_ofEval_bind h.wellFormed (leads_resolve name loc) fun f => ?_
  have hlimit := hm.limit
  obtain ⟨limit, inner, restart⟩ := M
  obtain ⟨limit', inner', restart'⟩ := m
  cases hlimit
  cases hm.inner with
  | none => exact mimics_fail h.wellFormed _ _
  | some hinner =>
    refine (StoreActivation.mimics_bind hinner.reduce h loc habs).bind fun σ' a b hσ' hab => ?_
    exact mimics_pure hσ'.wellFormed ⟨hinner, hab⟩

theorem Mimics.call (hm : M.Mimics m) (h : σ.Shows r scope) (name : String)
    {as : List StoreArgument} {bs : List Argument}
    (habs : List.Forall₂ (StoreArgument.Mimics σ) as bs) (loc : Option Loc) :
    StoreEval.Mimics none σ Equal (M.call r name as loc) (m.call scope name bs loc) := by
  refine (hm.enter h name habs loc).bind_fresh fun σ' p q ⟨hinner, h⟩ => ?_
  refine ⟨p.2.scope, h.made.fresh, mimics_store ?_⟩
  rw [h.made.depth_eq]
  exact mimics_ofEval_bind h.made.wellFormed (permits_keeps.leads_record _) fun _ =>
    h.reduce hm hinner

theorem Mimics.perform (hm : M.Mimics m) (h : σ.Shows r scope) (name : String)
    {as : List StoreArgument} {bs : List Argument}
    (habs : List.Forall₂ (StoreArgument.Mimics σ) as bs) (loc : Option Loc) :
    StoreEval.Mimics none σ Equal (M.perform r name as loc) (m.perform scope name bs loc) := by
  refine (hm.enter h name habs loc).bind_fresh fun σ' p q ⟨hinner, h⟩ => ?_
  refine ⟨p.2.scope, h.made.fresh, mimics_store ?_⟩
  rw [h.made.depth_eq]
  exact mimics_ofEval_bind h.made.wellFormed (permits_keeps.leads_record _) fun _ =>
    h.evaluate hm hinner

mutual

/-- **The value of an expression** at an address is its value in the scope at that address, and
nothing that was in the store is changed. -/
theorem Mimics.reduce (hm : M.Mimics m) {σ : Store} (h : σ.Shows r scope) (e : Expr) :
    StoreEval.Mimics none σ Equal (M.reduce r e) (m.reduce scope e) := by
  cases e with
  | string s l =>
    rw [StoreEngine.reduce, Engine.reduce]
    exact mimics_pure h.wellFormed rfl
  | integer n l =>
    rw [StoreEngine.reduce, Engine.reduce]
    exact mimics_pure h.wellFormed rfl
  | var x l =>
    rw [StoreEngine.reduce, Engine.reduce]
    refine mimics_store ?_
    rw [h.view]
    cases scope.get? x with
    | some v => exact mimics_pure h.wellFormed rfl
    | none => exact mimics_fail h.wellFormed _ _
  | call name args loc =>
    rw [StoreEngine.reduce, Engine.reduce]
    exact hm.call h name (Mimics.arguments hm h args) loc
  | compare rel a b loc =>
    rw [StoreEngine.reduce, Engine.reduce]
    refine (Mimics.reduce hm h a).bind fun σ' v v' hσ' hv => ?_
    refine (Mimics.reduce hm (h.mono hσ') b).bind fun σ'' w w' hσ'' hw => ?_
    exact mimics_pure hσ''.wellFormed (by rw [hv, hw]; rfl)
  | math op a b loc =>
    rw [StoreEngine.reduce, Engine.reduce]
    refine (Mimics.reduce hm h a).bind fun σ' v v' hσ' hv => ?_
    refine (Mimics.reduce hm (h.mono hσ') b).bind fun σ'' w w' hσ'' hw => ?_
    rw [hv, hw]
    exact mimics_ofEval hσ''.wellFormed permits_keeps.refl
  | not e loc =>
    rw [StoreEngine.reduce, Engine.reduce]
    refine (Mimics.reduce hm h e).bind fun σ' v v' hσ' hv => ?_
    exact mimics_pure hσ'.wellFormed (by rw [hv]; rfl)
  | logic op es loc =>
    rw [StoreEngine.reduce, Engine.reduce]
    refine (Mimics.reduceAll hm h es).bind fun σ' vs vs' hσ' hvs => ?_
    exact mimics_pure hσ'.wellFormed (by rw [hvs]; rfl)
  | array es loc =>
    rw [StoreEngine.reduce, Engine.reduce]
    refine (Mimics.reduceAll hm h es).bind fun σ' vs vs' hσ' hvs => ?_
    exact mimics_pure hσ'.wellFormed (by rw [hvs]; rfl)
  | _ =>
    rw [StoreEngine.reduce, Engine.reduce]
    exact mimics_fail h.wellFormed _ _

theorem Mimics.reduceAll (hm : M.Mimics m) {σ : Store} (h : σ.Shows r scope)
    (es : List Expr) :
    StoreEval.Mimics none σ Equal (M.reduceAll r es) (m.reduceAll scope es) := by
  cases es with
  | nil => exact mimics_pure h.wellFormed rfl
  | cons e rest =>
    rw [StoreEngine.reduceAll, Engine.reduceAll]
    refine (Mimics.reduce hm h e).bind fun σ' v v' hσ' hv => ?_
    refine (Mimics.reduceAll hm (h.mono hσ') rest).bind fun σ'' vs vs' hσ'' hvs => ?_
    exact mimics_pure hσ''.wellFormed (by rw [hv, hvs]; rfl)

theorem Mimics.arguments (hm : M.Mimics m) {σ : Store} (h : σ.Shows r scope)
    (es : List Expr) :
    List.Forall₂ (StoreArgument.Mimics σ) (M.arguments r es) (m.arguments scope es) := by
  cases es with
  | nil =>
    rw [StoreEngine.arguments, Engine.arguments]
    exact .nil
  | cons e rest =>
    have hrest := Mimics.arguments hm h rest
    cases e with
    | assign x e loc =>
      rw [StoreEngine.arguments, Engine.arguments]
      exact .cons ⟨rfl, rfl, rfl, fun σ' hσ' => Mimics.reduce hm (h.mono hσ') e⟩ hrest
    | _ =>
      rw [StoreEngine.arguments, Engine.arguments]
      · exact .cons ⟨rfl, rfl, rfl, fun σ' hσ' => Mimics.reduce hm (h.mono hσ') _⟩ hrest
      all_goals simp

end

/-! ## Statements -/

/-- Statements at an address came to what they come to in the scope at that address, which is what
is found there afterwards, and variables have been set nowhere else. -/
structure Leaves (s : State) (σ : Store) (r : Nat)
    (p : Except Failure (Option Expr) × (State × Store)) (q : Engine.Outcome × State) : Prop where
  result : p.1 = q.1.2
  state : p.2.1 = q.2
  grows : σ.Grows (some r) p.2.2
  shows : p.2.2.Shows r q.1.1
  keeps : s.Keeps q.2

theorem Leaves.of_grows {s s' : State} {σ σ' : Store}
    {p : Except Failure (Option Expr) × (State × Store)} {q : Engine.Outcome × State}
    (h : Leaves s' σ' r p q) (hσ : σ.Grows (some r) σ') (hs : s.Keeps s') : Leaves s σ r p q :=
  { h with grows := hσ.trans h.grows, keeps := hs.trans h.keeps }

/-- Where no variables have been set, the scope is as it was. -/
theorem leaves_of_none {s s' : State} (h : σ.Shows r scope) (hσ : σ.Grows none σ')
    (hs : s.Keeps s') (v : Except Failure (Option Expr)) :
    Leaves s σ r (v, (s', σ')) ((scope, v), s') :=
  ⟨rfl, rfl, hσ.of_none _, h.mono hσ, hs⟩

/-- **Running statements** at an address sets variables there at most. -/
theorem Mimics.execute (hm : M.Mimics m) (body : List Expr) {σ : Store} {scope : Scope}
    (h : σ.Shows r scope) (s : State) :
    Leaves s σ r ((M.run r body).run (s, σ)) ((m.execute scope body).run s) := by
  induction body generalizing σ scope s with
  | nil => exact leaves_of_none h (.refl h.wellFormed _) (.refl s) _
  | cons e rest ih =>
    cases e with
    | ret e l =>
      have he := hm.reduce h e s
      rw [run, StoreEval.run_bind, Engine.run_execute_ret]
      generalize (M.reduce r e).run (s, σ) = p, (m.reduce scope e).run s = q at he
      cases he with
      | value hv hσ hs =>
        cases hv
        exact leaves_of_none h hσ hs _
      | failure f hσ hs => exact leaves_of_none h hσ hs _
    | assign x e l =>
      have he := hm.reduce h e s
      rw [run, StoreEval.run_bind, Engine.run_execute_assign]
      generalize (M.reduce r e).run (s, σ) = p, (m.reduce scope e).run s = q at he
      cases he with
      | @value σ' s' v _ hv hσ hs =>
        cases hv
        have hset := (h.mono hσ).define x v
        exact (ih hset s').of_grows
          ((hσ.of_none _).trans (Store.grows_define hσ.wellFormed r x v)) hs
      | failure f hσ hs => exact leaves_of_none h hσ hs _
    | declare name params defaults body l =>
      rw [run, Engine.run_execute_declare]
      split
      · exact leaves_of_none h (.refl h.wellFormed _) (.refl s) _
      · exact (ih h _).of_grows (.refl h.wellFormed _) (keeps_of_eq rfl)
    | call name args l =>
      have hcall := hm.perform h name (hm.arguments h args) l s
      rw [run, StoreEval.run_bind, Engine.run_execute_call]
      generalize (M.perform r name (M.arguments r args) l).run (s, σ) = p,
        (m.perform scope name (m.arguments scope args) l).run s = q at hcall
      cases hcall with
      | value _ hσ hs => exact (ih (h.mono hσ) _).of_grows (hσ.of_none _) hs
      | failure f hσ hs => exact leaves_of_none h hσ hs _
    | _ => exact leaves_of_none h (.refl h.wellFormed _) (.refl s) _

theorem Mimics.run (hm : M.Mimics m) (h : σ.Shows r scope) (body : List Expr) :
    StoreEval.Mimics (some r) σ Equal (M.run r body) (m.run scope body) := by
  intro s
  have hleaves := hm.execute body h s
  change Tallies _ _ _ _ _ (((m.execute scope body).run s).1.2, ((m.execute scope body).run s).2)
  generalize (M.run r body).run (s, σ) = p, (m.execute scope body).run s = q at hleaves
  obtain ⟨v, s', σ'⟩ := p
  obtain ⟨⟨scope', v'⟩, s''⟩ := q
  obtain ⟨rfl, rfl, hσ, -, hs⟩ := hleaves
  cases v with
  | ok v => exact .value rfl hσ hs
  | error f => exact .failure f hσ hs

end StoreEngine

/-- The engines with as many calls still permitted do the same. -/
theorem mimics_storeEngine (limit : Int) {restart : Nat → Expr → StoreEval Expr}
    {restart' : Scope → Expr → Eval Expr} (h : StoreActivation.Reduces restart restart') (n : Nat) :
    (storeEngine limit restart n).Mimics (engine limit restart' n) := by
  induction n with
  | zero => exact ⟨rfl, .none, h⟩
  | succ n ih =>
    exact ⟨rfl, .some ⟨fun hr e => ih.reduce hr e, fun hr body => ih.run hr body⟩, h⟩

theorem reduces_storeRestarting (limit : Int) (n : Nat) :
    StoreActivation.Reduces (storeRestarting limit n) (restarting limit n) := by
  induction n with
  | zero => exact fun h _ s => .failure _ (.refl h.wellFormed _) (.refl s)
  | succ n ih => exact fun h e => (mimics_storeEngine limit ih limit.toNat).reduce h e

theorem mimics_within (limit : Int) {scope : Scope} (h : σ.Shows r scope) :
    (σ.engine limit r).Mimics (Engine.within limit scope) := by
  rw [Store.engine, Engine.within, h.depth_eq]
  exact mimics_storeEngine limit (reduces_storeRestarting limit _) _

end AchievementLang

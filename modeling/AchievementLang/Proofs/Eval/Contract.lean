import AchievementLang.Eval.Reduce
import AchievementLang.Proofs.Eval.Reduced
import AchievementLang.Proofs.Eval.Triple

/-!
# Invariants of evaluation

A `Contract` is an invariant of the state together with the failures that may arise. If it is kept
by a declaration, by the record of a call and by the two functions that register something, it is
kept by all of evaluation. Here this is shown for the binding of arguments (`Activation.keeps_bind`)
and for each function of the language; all that they come to are values in the sense of
`Expr.IsReduced`, as long as variables hold such values.
-/

namespace AchievementLang

open Eval

/-- An invariant of evaluation. -/
structure Contract where
  /-- Holds of the state between two steps. -/
  Inv : State → Prop
  /-- The failure may arise in the state. -/
  Fails : Failure → State → Prop
  /-- Functions are found by their names. -/
  named : ∀ {s name f}, Inv s → s.functions.get? name = some f → f.name = name
  declare : ∀ {s} (d : Declaration), Inv s → Inv (Eval.declare d s)
  reducing : ∀ {s} (name : String) (depth : Nat), Inv s →
    Inv { s with events := .reducing name depth :: s.events }
  evaluating : ∀ {s} (name : String) (depth : Nat), Inv s →
    Inv { s with events := .evaluating name depth :: s.events }
  fault : ∀ {s} (f : Fault), Inv s → Fails (.fault f) s
  achievement : ∀ {a : Activation}, a.scope.IsReduced →
    Meets Inv a.registerAchievement (fun _ => Inv) Fails
  leaderboard : ∀ {a : Activation}, a.scope.IsReduced →
    Meets Inv a.registerLeaderboard (fun _ => Inv) Fails

namespace Contract

variable {C : Contract} {α β : Type} {Q : α → Prop} {R : β → Prop}

/-- The evaluation keeps the contract, and its value satisfies `Q`. -/
def Keeps (C : Contract) (x : Eval α) (Q : α → Prop) : Prop :=
  Meets C.Inv x (fun a s => C.Inv s ∧ Q a) C.Fails

theorem keeps_pure {a : α} (h : Q a) : C.Keeps (pure a) Q := upholds_pure h

theorem Keeps.bind {x : Eval α} {f : α → Eval β} (hx : C.Keeps x Q)
    (hf : ∀ a, Q a → C.Keeps (f a) R) : C.Keeps (x >>= f) R :=
  Upholds.bind hx hf

theorem Keeps.mono {Q' : α → Prop} {x : Eval α} (hx : C.Keeps x Q) (h : ∀ a, Q a → Q' a) :
    C.Keeps x Q' :=
  Upholds.mono hx h

theorem keeps_fail (cause : Cause) (loc : Option Loc) : C.Keeps (fail cause loc) Q :=
  meets_fail fun _ => C.fault ⟨cause, loc⟩

theorem keeps_of_inspects {x : Eval α} (h : Inspects x Q) : C.Keeps x Q :=
  h.meets fun f _ => C.fault f

theorem keeps_function? (name : String) :
    C.Keeps (function? name) fun f => ∀ g ∈ f, g.name = name := by
  intro s hs
  exact ⟨hs, fun g hg => C.named hs hg⟩

theorem keeps_foldlM {f : β → α → Eval β} {as : List α} {b : β} (hb : R b)
    (hf : ∀ a ∈ as, ∀ b, R b → C.Keeps (f b a) R) : C.Keeps (as.foldlM f b) R :=
  upholds_foldlM hb hf

theorem keeps_mapM {r : α → β → Prop} {f : α → Eval β} {as : List α}
    (hf : ∀ a ∈ as, C.Keeps (f a) (r a)) : C.Keeps (as.mapM f) (List.Forall₂ r as) :=
  upholds_mapM hf

end Contract

namespace Activation

/-! ## Parameters -/

section Parameters

variable {a : Activation}

theorem inspects_param (h : a.scope.IsReduced) (x : String) :
    Inspects (a.param x) Expr.IsReduced := by
  unfold param
  split
  next v hv => exact inspects_pure (h a.scope.frame (by simp) x v hv)
  next => exact inspects_fail _ _

theorem inspects_string (h : a.scope.IsReduced) (x : String) :
    Inspects (a.string x) fun _ => True := by
  refine (inspects_param h x).bind fun e _ => ?_
  split
  · exact inspects_pure trivial
  · exact inspects_fail _ _

theorem inspects_integer (h : a.scope.IsReduced) (x : String) :
    Inspects (a.integer x) fun _ => True := by
  refine (inspects_param h x).bind fun e _ => ?_
  split
  · exact inspects_pure trivial
  · exact inspects_fail _ _

end Parameters

end Activation

variable {C : Contract}

/-- The argument is evaluated to a value. -/
def Argument.Sound (C : Contract) (a : Argument) : Prop := C.Keeps a.reduce Expr.IsReduced

namespace Activation

/-! ## Binding -/

/-- What has been bound are values, and the surplus arguments can be evaluated. -/
structure Progress.Sound (C : Contract) (p : Progress) : Prop where
  scope : p.scope.IsReduced
  surplus : ∀ a ∈ p.surplus, a.Sound C

/-- The function has been called with values. The variable that holds the surplus arguments is set
to what was written, until these are evaluated. -/
structure Sound (C : Contract) (a : Activation) : Prop where
  scope : a.function.isVariadic = false → a.scope.IsReduced
  define : ∀ v : Expr, v.IsReduced → (a.scope.define surplusVariable v).IsReduced
  surplus : ∀ b ∈ a.surplus, b.Sound C

variable {f : Function} {p : Progress} {b : Argument} {loc : Option Loc}
  {reduce : Scope → Expr → Eval Expr}

theorem keeps_bindArgument (hp : p.Sound C) (hb : b.Sound C) :
    C.Keeps (bindArgument f p b) (Progress.Sound C) := by
  unfold bindArgument
  split
  next x _ =>
    unfold bindNamed
    split
    · exact Contract.keeps_fail _ _
    split
    · exact Contract.keeps_fail _ _
    exact hb.bind fun v hv => Contract.keeps_pure ⟨hp.scope.define x hv, hp.surplus⟩
  next =>
    unfold bindNext
    split
    · exact Contract.keeps_fail _ _
    split
    next x rest _ =>
      exact hb.bind fun v hv => Contract.keeps_pure ⟨hp.scope.define x hv, hp.surplus⟩
    next =>
      split
      · refine Contract.keeps_pure ⟨hp.scope, fun a ha => ?_⟩
        rcases List.mem_append.1 ha with ha | ha
        · exact hp.surplus a ha
        · rw [List.mem_singleton.1 ha]
          exact hb
      · exact Contract.keeps_fail _ _

theorem keeps_bindDefault (hreduce : ∀ scope e, scope.IsReduced →
    C.Keeps (reduce scope e) Expr.IsReduced) {scope : Scope} (h : scope.IsReduced) (x : String) :
    C.Keeps (bindDefault f reduce loc scope x) Scope.IsReduced := by
  unfold bindDefault
  split
  · exact Contract.keeps_pure h
  split
  · exact Contract.keeps_fail _ _
  next e _ => exact (hreduce scope e h).bind fun v hv => Contract.keeps_pure (h.define x hv)

/-- A call from a scope with values binds values. -/
theorem keeps_bind (hreduce : ∀ scope e, scope.IsReduced → C.Keeps (reduce scope e) Expr.IsReduced)
    {caller : Scope} (h : caller.IsReduced) {args : List Argument}
    (hargs : ∀ a ∈ args, a.Sound C) :
    C.Keeps (bind f reduce caller loc args) fun a => a.function = f ∧ a.Sound C := by
  have hstart : Progress.Sound C { scope := caller.callee, next := f.fixed } :=
    ⟨h.callee, by simp⟩
  refine (Contract.keeps_foldlM hstart fun a ha p hp => keeps_bindArgument hp (hargs a ha)).bind
    fun p hp => ?_
  refine (Contract.keeps_foldlM hp.scope fun x _ s hs => keeps_bindDefault hreduce hs x).bind
    fun s hs => Contract.keeps_pure ⟨rfl, fun hvariadic => ?_, fun v hv => ?_, hp.surplus⟩
  · rwa [bindSurplus, hvariadic]
  · unfold bindSurplus
    split
    · exact hs.redefine hv
    · exact hs.define _ hv

/-! ## Functions of the language -/

section Language

variable {a : Activation}

theorem keeps_accessor {s : Wire.Size} (hf : a.function = .accessor s) (h : a.scope.IsReduced) :
    C.Keeps a.accessor Expr.IsReduced := by
  refine (Contract.keeps_of_inspects (inspects_integer h "address")).bind fun ⟨n, l⟩ _ => ?_
  dsimp only
  split
  next w hw =>
    refine Contract.keeps_pure ?_
    rw [again, hf, ← Wire.Word.val_of_ofInt? hw]
    exact .accessor s w l a.loc
  next => exact Contract.keeps_fail _ _

/-- A call of `bit` stands for one of the accessor of a bit, at any number. -/
theorem keeps_bit (h : a.scope.IsReduced) :
    C.Keeps a.bit fun e =>
      ∃ i n l l', e = .call (Wire.Size.bit i).name [.integer n l] l' := by
  refine (Contract.keeps_of_inspects (inspects_integer h "index")).bind fun ⟨n, l⟩ _ => ?_
  dsimp only
  split
  · refine (Contract.keeps_of_inspects (inspects_integer h "address")).bind fun ⟨n, l⟩ _ => ?_
    exact Contract.keeps_pure ⟨_, _, _, _, rfl⟩
  · exact Contract.keeps_fail _ _

/-- The operand of `prev` is a read of memory, since its name denoted an accessor. -/
theorem keeps_prev (hf : a.function = .prev) (h : a.scope.IsReduced) :
    C.Keeps a.prev Expr.IsReduced := by
  refine (Contract.keeps_of_inspects (inspects_param h "accessor")).bind fun e he => ?_
  split
  next name args l =>
    refine (Contract.keeps_function? name).bind fun f hname => ?_
    split
    next s =>
      refine Contract.keeps_pure ?_
      obtain rfl : s.name = name := hname _ rfl
      obtain ⟨w, l', rfl⟩ := Expr.IsReduced.leaves (f := .accessor s) rfl he
      rw [again, hf]
      exact .prev s w l' l a.loc
    next => exact Contract.keeps_fail _ _
  next => exact Contract.keeps_fail _ _

theorem keeps_repeated (hf : a.function = .repeated) (h : a.scope.IsReduced) :
    C.Keeps a.repeated Expr.IsReduced := by
  refine (Contract.keeps_of_inspects (inspects_integer h "count")).bind fun ⟨n, l⟩ _ => ?_
  dsimp only
  split
  · exact Contract.keeps_fail _ _
  next hn =>
    refine (Contract.keeps_of_inspects (inspects_param h "comparison")).bind fun e he => ?_
    refine Contract.keeps_pure ?_
    rw [again, hf]
    exact .repeated (by omega) he l a.loc

theorem keeps_around (hf : a.function.isAround = true) (h : a.scope.IsReduced) :
    C.Keeps a.around Expr.IsReduced :=
  (Contract.keeps_of_inspects (inspects_param h "comparison")).bind fun _ he =>
    Contract.keeps_pure (.around a.function hf he a.loc)

theorem keeps_reducedSurplus (h : a.Sound C) :
    C.Keeps a.reducedSurplus fun vs => vs.length = a.surplus.length ∧ ∀ v ∈ vs, v.IsReduced := by
  refine (Contract.keeps_mapM fun b hb => h.surplus b hb).mono fun vs hvs => ?_
  refine ⟨hvs.length_eq.symm, fun v hv => ?_⟩
  obtain ⟨i, hi, rfl⟩ := List.getElem_of_mem hv
  exact (List.forall₂_iff_get.1 hvs).2 i (hvs.length_eq ▸ hi) hi

theorem keeps_maxOf (hf : a.function = .maxOf) (h : a.Sound C) :
    C.Keeps a.maxOf Expr.IsReduced := by
  unfold maxOf
  split
  · exact Contract.keeps_fail _ _
  next hsurplus =>
    refine (keeps_reducedSurplus h).bind fun vs ⟨hlength, hvs⟩ => Contract.keeps_pure ?_
    rw [again, hf]
    refine .maxOf (fun e => hsurplus ?_) hvs a.loc
    rw [e] at hlength
    exact List.isEmpty_iff.2 (List.length_eq_zero_iff.1 hlength.symm)

end Language

end Activation

end AchievementLang

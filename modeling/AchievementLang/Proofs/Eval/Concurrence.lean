import AchievementLang.Proofs.Eval.Engine
import AchievementLang.Proofs.Eval.SameValues

/-!
# Evaluations compared

What an expression comes to depends on what the variables hold, on the functions and on nothing else
of the state: not on what happened before, and on the registry only in so far as something can be
registered at all. Which of the rest may differ, and what two evaluations have to say about it, is
a question of what they are compared for. A `Comparison` tells what counts, which states are
related, and which failures of the first evaluation excuse it from the comparison. It says of the
states only that they have the same functions and stay related by all that evaluation does to them.

`Eval.Concurs C I J R x y` compares two evaluations from states related by `I`: they come to values
related by `R` or to the same failure, in states related by `J`, or the first is excused. Values are
compared in all or but for their places (`Same`), and scopes by what they hold (`Scope.Like`); code
is the same in both, up to variables that are replaced by what they hold.

There is one rule for each way in which evaluations are put together, and one lemma for each
function of the language. Engines and the evaluation of expressions and statements are treated
afterwards.
-/

namespace AchievementLang

/-- The registry with all that was registered afterwards. -/
def Registry.append (r added : Registry) : Registry :=
  ⟨r.achievements ++ added.achievements, r.leaderboards ++ added.leaderboards⟩

/-- What it takes for two evaluations to be the same. -/
structure Comparison where
  /-- The places of values and failures count. -/
  places : Bool
  /-- The depth of calls counts. -/
  depths : Bool
  /-- Where the first evaluation fails so, the second may come to anything. -/
  excused : Failure → Prop
  /-- The statements that may be run. -/
  code : List Expr → Prop
  /-- The states from which evaluations start, and in which they end. -/
  states : State → State → Prop
  /-- What the first evaluation keeps, also where it is excused. -/
  kept : State → Prop
  left : ∀ {s t}, states s t → kept s
  functions : ∀ {s t}, states s t → s.functions = t.functions
  declares : ∀ {s t}, states s t → s.registry.isSome = t.registry.isSome
  record : ∀ {s t e e'}, states s t → (places = true → depths = true → e = e') →
    states { s with events := e :: s.events } { t with events := e' :: t.events }
  /-- What adds to the end of a registry adds the same to what was registered before. -/
  register : ∀ {s t} {change : Registry → Registry},
    (∀ r added : Registry, change (r.append added) = r.append (change added)) → states s t →
    states { s with registry := s.registry.map change }
      { t with registry := t.registry.map change }
  declare : ∀ {s t name params defaults body loc rest},
    code (.declare name params defaults body loc :: rest) → states s t →
    states (Eval.declare ⟨name, params, defaults, body⟩ s)
      (Eval.declare ⟨name, params, defaults, body⟩ t)
  rest : ∀ {e rest}, code (e :: rest) → code rest
  body : ∀ {s t name d}, states s t → s.functions.get? name = some (.declared d) → code d.body

variable {C : Comparison} {I J K : State → State → Prop}

namespace Eval

variable {α β γ δ : Type} {R : α → β → Prop} {T : γ → δ → Prop}

/-! ## Composition -/

/-- How two outcomes compare. -/
inductive Concur (C : Comparison) (J : State → State → Prop) (R : α → β → Prop) :
    Except Failure α × State → Except Failure β × State → Prop
  | value {a : α} {b : β} {s t : State} (h : R a b) (hst : J s t) :
      Concur C J R (.ok a, s) (.ok b, t)
  | failure {f g : Failure} {s t : State} (h : Same Failure.bare C.places f g) (hst : J s t) :
      Concur C J R (.error f, s) (.error g, t)
  /-- The second evaluation may go on where the first is excused. -/
  | excused {f : Failure} {s : State} (h : C.excused f) (hs : C.kept s)
      (r : Except Failure β × State) : Concur C J R (.error f, s) r

/-- From related states, the evaluations come to the same, in related states. -/
def Concurs (C : Comparison) (I J : State → State → Prop) (R : α → β → Prop) (x : Eval α)
    (y : Eval β) : Prop :=
  ∀ s t, I s t → Concur C J R (x.run s) (y.run t)

/-- The evaluations are in step, if they start in states that are. -/
abbrev InStep (C : Comparison) (R : α → β → Prop) (x : Eval α) (y : Eval β) : Prop :=
  Concurs C C.states C.states R x y

theorem Concur.left {p : Except Failure α × State} {q : Except Failure β × State}
    (h : Concur C C.states R p q) : C.kept p.2 := by
  cases h with
  | value _ hst => exact C.left hst
  | failure _ hst => exact C.left hst
  | excused _ hs _ => exact hs

theorem Concurs.mono {x : Eval α} {y : Eval β} (h : Concurs C I J R x y)
    (hJK : ∀ s t, J s t → K s t) : Concurs C I K R x y := by
  intro s t hst
  have hxy := h s t hst
  generalize x.run s = p, y.run t = q at hxy
  cases hxy with
  | value hab hst => exact .value hab (hJK _ _ hst)
  | failure hf hst => exact .failure hf (hJK _ _ hst)
  | excused hf hs q => exact .excused hf hs q

theorem Concurs.of_imp {x : Eval α} {y : Eval β} (h : Concurs C J K R x y)
    (hIJ : ∀ s t, I s t → J s t) : Concurs C I K R x y :=
  fun s t hst => h s t (hIJ s t hst)

theorem Concurs.mono_value {R' : α → β → Prop} {x : Eval α} {y : Eval β}
    (h : Concurs C I J R x y) (hR : ∀ a b, R a b → R' a b) : Concurs C I J R' x y := by
  intro s t hst
  have hxy := h s t hst
  generalize x.run s = p, y.run t = q at hxy
  cases hxy with
  | value hab hst => exact .value (hR _ _ hab) hst
  | failure hf hst => exact .failure hf hst
  | excused hf hs q => exact .excused hf hs q

theorem concurs_pure {a : α} {b : β} (h : R a b) : Concurs C I I R (pure a) (pure b) :=
  fun _ _ hst => .value h hst

theorem concurs_fail (cause : Cause) {l l' : Option Loc} (h : Same noPlace C.places l l') :
    Concurs C I I R (fail cause l) (fail cause l') :=
  fun _ _ hst => .failure (same_at cause h) hst

/-- Failures at the one place go with failures at the other. -/
def FailAlike (C : Comparison) (I : State → State → Prop) (l l' : Option Loc) : Prop :=
  ∀ (α β : Type) (R : α → β → Prop) (cause : Cause),
    Concurs C I I R (fail cause l) (fail cause l')

theorem failAlike_of_same {l l' : Option Loc} (h : Same noPlace C.places l l') :
    FailAlike C I l l' :=
  fun _ _ _ cause => concurs_fail cause h

theorem inStep_of_excused {cause : Cause} {loc : Option Loc} (h : C.excused (.at? cause loc))
    (y : Eval β) : InStep C R (fail cause loc) y :=
  fun _ t hst => .excused h (C.left hst) (y.run t)

/-- What follows may leave the states related more loosely. -/
theorem Concurs.bind_loosely {x : Eval α} {y : Eval β} {f : α → Eval γ} {g : β → Eval δ}
    (hxy : Concurs C I J R x y) (hJK : ∀ s t, J s t → K s t)
    (hfg : ∀ a b, R a b → Concurs C J K T (f a) (g b)) :
    Concurs C I K T (x >>= f) (y >>= g) := by
  intro s t hst
  have h := hxy s t hst
  rw [run_bind, run_bind]
  generalize x.run s = p, y.run t = q at h
  cases h with
  | value hab hst => exact hfg _ _ hab _ _ hst
  | failure hf hst => exact .failure hf (hJK _ _ hst)
  | excused hf hs q => exact .excused hf hs _

theorem Concurs.bind {x : Eval α} {y : Eval β} {f : α → Eval γ} {g : β → Eval δ}
    (hxy : Concurs C I J R x y) (hfg : ∀ a b, R a b → Concurs C J J T (f a) (g b)) :
    Concurs C I J T (x >>= f) (y >>= g) :=
  hxy.bind_loosely (fun _ _ => id) hfg

theorem Concurs.bind_eq {x y : Eval α} {f : α → Eval γ} {g : α → Eval δ}
    (hxy : Concurs C I J Eq x y) (hfg : ∀ a, Concurs C J J T (f a) (g a)) :
    Concurs C I J T (x >>= f) (y >>= g) :=
  hxy.bind fun a b hab => by
    cases hab
    exact hfg a

theorem concurs_foldlM {f : α → γ → Eval α} {g : β → δ → Eval β} {cs : List γ} {ds : List δ}
    (hcds : List.Forall₂ T cs ds)
    (hfg : ∀ a b c d, R a b → T c d → Concurs C I I R (f a c) (g b d)) {a : α} {b : β}
    (hab : R a b) : Concurs C I I R (cs.foldlM f a) (ds.foldlM g b) := by
  induction hcds generalizing a b with
  | nil => exact concurs_pure hab
  | cons hcd _ ih =>
    rw [List.foldlM_cons, List.foldlM_cons]
    exact (hfg _ _ _ _ hab hcd).bind fun a' b' hab' => ih hab'

theorem concurs_mapM {f : α → Eval γ} {g : β → Eval δ} {as : List α} {bs : List β}
    (habs : List.Forall₂ R as bs) (hfg : ∀ a b, R a b → Concurs C I I T (f a) (g b)) :
    Concurs C I I (List.Forall₂ T) (as.mapM f) (bs.mapM g) := by
  induction habs with
  | nil => exact concurs_pure .nil
  | cons hab _ ih =>
    rw [List.mapM_cons, List.mapM_cons]
    refine (hfg _ _ hab).bind fun c d hcd => ?_
    exact ih.bind fun cs ds hcds => concurs_pure (.cons hcd hcds)

/-! ## The state -/

theorem concurs_function? (hI : ∀ s t, I s t → s.functions = t.functions) (name : String) :
    Concurs C I I Eq (function? name) (function? name) := by
  intro s t hst
  rw [run_function?, run_function?, ← hI s t hst]
  exact .value rfl hst

theorem concurs_ofExcept {bare : α → α} {x y : Except Failure α}
    (h : Same (bareOutcome bare) C.places x y) :
    Concurs C I I (Same bare C.places) (ofExcept x) (ofExcept y) := by
  intro s t hst
  have hbare := h.bare_eq
  cases x with
  | ok a =>
    cases y with
    | ok b => exact .value ⟨Except.ok.inj hbare, fun hp => Except.ok.inj (h.eq hp)⟩ hst
    | error g => cases hbare
  | error f =>
    cases y with
    | ok b => cases hbare
    | error g => exact .failure ⟨Except.error.inj hbare, fun hp => Except.error.inj (h.eq hp)⟩ hst

theorem inStep_record {e e' : Event} (h : C.places = true → C.depths = true → e = e') :
    InStep C Eq (record e) (record e') :=
  fun _ _ hst => .value rfl (C.record hst h)

/-- What is the same is compiled to the same. -/
theorem inStep_compiled {compile : FunctionTable → Expr → Except Failure α}
    (hcompile : ∀ functions e, compile functions e.bare = bareOutcome id (compile functions e))
    {e e' : Expr} (h : Same Expr.bare C.places e e') :
    InStep C Eq (compiled (compile · e)) (compiled (compile · e')) := by
  intro s t hst
  have hsame : Same (bareOutcome id) C.places (compile s.functions e) (compile s.functions e') :=
    h.map (g := compile s.functions) fun e => (hcompile s.functions e).symm
  rw [run_compiled, run_compiled, ← C.functions hst]
  exact (concurs_ofExcept hsame).mono_value (fun _ _ => same_id_iff.1) s t hst

theorem inStep_register {change : Registry → Registry}
    (h : ∀ r added : Registry, change (r.append added) = r.append (change added)) :
    InStep C Eq (register change) (register change) := by
  rintro ⟨functions, registry, events⟩ ⟨functions', registry', events'⟩ hst
  have hdeclares := C.declares hst
  cases registry with
  | none =>
    obtain rfl := Option.isNone_iff_eq_none.1 (by simpa using hdeclares.symm)
    exact .failure (.refl _ _ _) hst
  | some r =>
    obtain ⟨r', rfl⟩ := Option.isSome_iff_exists.1 hdeclares.symm
    exact .value rfl (C.register h hst)

theorem inStep_conditionText {e e' : Expr} (h : Same Expr.bare C.places e e') :
    InStep C Eq (conditionText e) (conditionText e') :=
  (inStep_record fun hp _ => by rw [h.eq hp]).bind_eq fun _ =>
    (inStep_compiled Compile.conditionText_bare h).bind_eq fun _ =>
      (inStep_record fun hp _ => by rw [h.eq hp]).bind_eq fun _ => concurs_pure rfl

theorem inStep_valueText {e e' : Expr} (h : Same Expr.bare C.places e e') :
    InStep C Eq (valueText e) (valueText e') :=
  (inStep_record fun hp _ => by rw [h.eq hp]).bind_eq fun _ =>
    (inStep_compiled Compile.valueText_bare h).bind_eq fun _ =>
      (inStep_record fun hp _ => by rw [h.eq hp]).bind_eq fun _ => concurs_pure rfl

end Eval

open Eval

namespace Activation

/-! ## Functions of the language -/

/-- The same function has been called alike, as far as can be seen without surplus arguments. -/
structure Like (C : Comparison) (a b : Activation) : Prop where
  function : a.function = b.function
  scope : a.scope.Like C.places C.depths b.scope
  loc : a.loc = b.loc

section Language

variable {a b : Activation} (h : a.Like C b)
include h

theorem Like.param (x : String) :
    InStep C (Same Expr.bare C.places) (a.param x) (b.param x) := by
  unfold Activation.param
  obtain ⟨ha, hb⟩ | ⟨v, w, ha, hb, hvw⟩ := (h.scope.param x).option
  · rw [ha, hb, h.loc]
    exact concurs_fail _ (.refl _ _ _)
  · rw [ha, hb]
    exact concurs_pure hvw

theorem Like.string (x : String) :
    InStep C (Same barePlaced C.places) (a.string x) (b.string x) := by
  refine (h.param x).bind fun e e' he => ?_
  have hloc : Same noPlace C.places (e.loc.or a.loc) (e'.loc.or b.loc) := by
    rw [h.loc]
    exact (Expr.same_loc he).or (.refl _ _ _)
  split
  next s l =>
    obtain ⟨l', rfl, hl⟩ := Expr.same_string he
    exact concurs_pure (same_placed s hl)
  next hne =>
    split
    next s l =>
      obtain ⟨l', rfl, -⟩ := Expr.same_string he.symm
      exact (hne s l' rfl).elim
    next => exact concurs_fail _ hloc

theorem Like.integer (x : String) :
    InStep C (Same barePlaced C.places) (a.integer x) (b.integer x) := by
  refine (h.param x).bind fun e e' he => ?_
  have hloc : Same noPlace C.places (e.loc.or a.loc) (e'.loc.or b.loc) := by
    rw [h.loc]
    exact (Expr.same_loc he).or (.refl _ _ _)
  split
  next n l =>
    obtain ⟨l', rfl, hl⟩ := Expr.same_integer he
    exact concurs_pure (same_placed n hl)
  next hne =>
    split
    next n l =>
      obtain ⟨l', rfl, -⟩ := Expr.same_integer he.symm
      exact (hne n l' rfl).elim
    next => exact concurs_fail _ hloc

theorem Like.again {es es' : List Expr} (hes : Same Expr.bareAll C.places es es') :
    Same Expr.bare C.places (a.again es) (b.again es') := by
  rw [Activation.again, Activation.again, h.function, h.loc]
  exact Expr.same_again _ hes _

theorem Like.accessor : InStep C (Same Expr.bare C.places) a.accessor b.accessor := by
  refine (h.integer "address").bind fun ⟨n, l⟩ ⟨n', l'⟩ hn => ?_
  obtain ⟨rfl, hl⟩ := same_placed_iff.1 hn
  dsimp only
  split
  · exact concurs_pure (h.again (Expr.same_cons (Expr.same_number n hl) Expr.same_nil))
  · exact concurs_fail _ hl

/-- What a call of `bit` stands for is a call with a number. -/
theorem Like.bit : InStep C (fun e e' => ∃ name n l l' loc,
    Same noPlace C.places l l' ∧ e = .call name [.integer n l] loc ∧
      e' = .call name [.integer n l'] loc) a.bit b.bit := by
  refine (h.integer "index").bind fun ⟨i, l⟩ ⟨i', l'⟩ hi => ?_
  obtain ⟨rfl, hl⟩ := same_placed_iff.1 hi
  dsimp only
  split
  · refine (h.integer "address").bind fun ⟨n, k⟩ ⟨n', k'⟩ hn => ?_
    obtain ⟨rfl, hk⟩ := same_placed_iff.1 hn
    exact concurs_pure ⟨_, n, k, k', b.loc, hk, by rw [h.loc], rfl⟩
  · exact concurs_fail _ hl

theorem Like.prev : InStep C (Same Expr.bare C.places) a.prev b.prev := by
  refine (h.param "accessor").bind fun e e' he => ?_
  split
  next name es l =>
    obtain ⟨es', l', rfl, -⟩ := Expr.same_call he
    refine (concurs_function? (fun _ _ => C.functions) name).bind_eq fun f => ?_
    split
    · exact concurs_pure (h.again (Expr.same_cons he Expr.same_nil))
    · exact concurs_fail _ (Expr.same_loc he)
  next hne =>
    split
    next name es l =>
      obtain ⟨es', l', rfl, -⟩ := Expr.same_call he.symm
      exact (hne name es' l' rfl).elim
    next => exact concurs_fail _ (Expr.same_loc he)

theorem Like.repeated : InStep C (Same Expr.bare C.places) a.repeated b.repeated := by
  refine (h.integer "count").bind fun ⟨n, l⟩ ⟨n', l'⟩ hn => ?_
  obtain ⟨rfl, hl⟩ := same_placed_iff.1 hn
  dsimp only
  split
  · exact concurs_fail _ hl
  · refine (h.param "comparison").bind fun e e' he => concurs_pure (h.again ?_)
    exact Expr.same_cons (Expr.same_number n hl) (Expr.same_cons he Expr.same_nil)

theorem Like.around : InStep C (Same Expr.bare C.places) a.around b.around :=
  (h.param "comparison").bind fun _ _ he =>
    concurs_pure (h.again (Expr.same_cons he Expr.same_nil))

theorem Like.registerAchievement :
    InStep C Eq a.registerAchievement b.registerAchievement := by
  refine (h.string "title").bind fun ⟨title, l⟩ ⟨title', l'⟩ htitle => ?_
  obtain ⟨rfl, -⟩ := same_placed_iff.1 htitle
  refine (h.string "description").bind fun ⟨description, l⟩ ⟨description', l'⟩ hdescription => ?_
  obtain ⟨rfl, -⟩ := same_placed_iff.1 hdescription
  refine (h.integer "points").bind fun ⟨points, l⟩ ⟨points', l'⟩ hpoints => ?_
  obtain ⟨rfl, hl⟩ := same_placed_iff.1 hpoints
  dsimp only
  split
  · exact concurs_fail _ hl
  · refine (h.param "trigger").bind fun e e' he => ?_
    refine (inStep_record fun hp _ => by rw [he.eq hp]).bind_eq fun _ => ?_
    refine (inStep_compiled Compile.trigger_bare he).bind_eq fun trigger => ?_
    refine (h.integer "id").bind fun ⟨id, l⟩ ⟨id', l'⟩ hid => ?_
    obtain ⟨rfl, -⟩ := same_placed_iff.1 hid
    rw [line, line, h.loc]
    refine (inStep_register fun r added => ?_).bind_eq fun _ => inStep_record fun _ _ => rfl
    simp only [Registry.append, List.append_assoc]

omit h in
theorem inStep_alternatives {e e' : Expr} (he : Same Expr.bare C.places e e') :
    InStep C (Same Expr.bareAll C.places) (alternatives e) (alternatives e') := by
  have hone := Expr.same_cons he Expr.same_nil
  unfold alternatives
  split
  next name es l =>
    obtain ⟨es', l', rfl, hes⟩ := Expr.same_call he
    refine (concurs_function? (fun _ _ => C.functions) name).bind_eq fun f => ?_
    split
    · exact concurs_pure hes
    · exact concurs_pure hone
  next hne =>
    split
    next name es l =>
      obtain ⟨es', l', rfl, -⟩ := Expr.same_call he.symm
      exact (hne name es' l' rfl).elim
    next => exact concurs_pure hone

theorem Like.registerLeaderboard :
    InStep C Eq a.registerLeaderboard b.registerLeaderboard := by
  refine (h.string "title").bind fun ⟨title, l⟩ ⟨title', l'⟩ htitle => ?_
  obtain ⟨rfl, -⟩ := same_placed_iff.1 htitle
  refine (h.string "description").bind fun ⟨description, l⟩ ⟨description', l'⟩ hdescription => ?_
  obtain ⟨rfl, -⟩ := same_placed_iff.1 hdescription
  refine (h.param "start").bind fun _ _ hstart => ?_
  refine (inStep_conditionText hstart).bind_eq fun start => ?_
  refine (h.param "cancel").bind fun _ _ hcancel => ?_
  refine (inStep_conditionText hcancel).bind_eq fun cancel => ?_
  refine (h.param "submit").bind fun _ _ hsubmit => ?_
  refine (inStep_conditionText hsubmit).bind_eq fun submit => ?_
  refine (h.param "value").bind fun e e' he => ?_
  refine (inStep_alternatives he).bind fun es es' hes => ?_
  have hvalues : InStep C (List.Forall₂ Eq) (es.mapM Eval.valueText) (es'.mapM Eval.valueText) :=
    concurs_mapM (Expr.forall₂_of_same hes) fun _ _ => inStep_valueText
  refine hvalues.bind fun values values' hvalues => ?_
  obtain rfl := List.forall₂_eq_eq_eq ▸ hvalues
  refine (h.string "format").bind fun ⟨format, l⟩ ⟨format', l'⟩ hformat => ?_
  obtain ⟨rfl, hl⟩ := same_placed_iff.1 hformat
  dsimp only
  split
  · exact concurs_fail _ hl
  · rw [line, line, h.loc]
    refine (inStep_register fun r added => ?_).bind_eq fun _ => inStep_record fun _ _ => rfl
    simp only [Registry.append, List.append_assoc]

end Language

end Activation

/-! ## Binding -/

/-- The arguments have the same label, and come to the same from related states. -/
structure Argument.Concurs (C : Comparison) (I : State → State → Prop) (a b : Argument) : Prop where
  label : a.label = b.label
  loc : FailAlike C I a.loc b.loc
  reduce : Eval.Concurs C I I (Same Expr.bare C.places) a.reduce b.reduce

namespace Activation

/-- The same has been bound, and the surplus arguments come to the same. -/
structure Progress.Concurs (C : Comparison) (I : State → State → Prop) (p q : Progress) : Prop where
  scope : p.scope.Like C.places C.depths q.scope
  next : p.next = q.next
  labelled : p.labelled = q.labelled
  surplus : List.Forall₂ (Argument.Concurs C I) p.surplus q.surplus

/-- The same function has been called alike. The variable that holds the surplus arguments is set to
what was written, which may differ, until these are evaluated. -/
structure Concurs (C : Comparison) (I : State → State → Prop) (a b : Activation) : Prop where
  function : a.function = b.function
  code : ∀ d, a.function = .declared d → C.code d.body
  scope : a.function.isVariadic = false → a.scope.Like C.places C.depths b.scope
  define : ∀ {v w}, Same Expr.bare C.places v w → (a.scope.define surplusVariable v).Like C.places
    C.depths (b.scope.define surplusVariable w)
  loc : a.loc = b.loc
  surplus : List.Forall₂ (Argument.Concurs C I) a.surplus b.surplus

theorem Concurs.like {a b : Activation} (h : a.Concurs C I b)
    (hvariadic : a.function.isVariadic = false) : a.Like C b :=
  ⟨h.function, h.scope hvariadic, h.loc⟩

theorem Concurs.depth {a b : Activation} (h : a.Concurs C I b) (hd : C.depths = true) :
    a.scope.depth = b.scope.depth :=
  (h.define (.refl _ _ (.string "" none))).depth hd

section Binding

variable {f : Function} {p q : Progress} {a b : Argument} {loc : Option Loc} {s t : Scope}
  {reduce reduce' : Scope → Expr → Eval Expr}

theorem concurs_bindNamed (hpq : p.Concurs C I q) (hab : a.Concurs C I b) (x : String) :
    Eval.Concurs C I I (Progress.Concurs C I) (bindNamed f p x a) (bindNamed f q x b) := by
  unfold bindNamed
  rw [hpq.scope.has_eq]
  split
  · exact hab.loc _ _ _ _
  split
  · exact hab.loc _ _ _ _
  refine hab.reduce.bind fun v w hvw => concurs_pure ?_
  exact ⟨hpq.scope.define x hvw, hpq.next, rfl, hpq.surplus⟩

theorem concurs_bindNext (hpq : p.Concurs C I q) (hab : a.Concurs C I b) :
    Eval.Concurs C I I (Progress.Concurs C I) (bindNext f p a) (bindNext f q b) := by
  unfold bindNext
  rw [hpq.labelled, hpq.next]
  split
  · exact hab.loc _ _ _ _
  split
  next x rest _ =>
    refine hab.reduce.bind fun v w hvw => concurs_pure ?_
    exact ⟨hpq.scope.define x hvw, rfl, rfl, hpq.surplus⟩
  next =>
    split
    · refine concurs_pure ⟨hpq.scope, rfl, rfl, ?_⟩
      exact List.rel_append hpq.surplus (.cons hab .nil)
    · exact hab.loc _ _ _ _

theorem concurs_bindArgument (hpq : p.Concurs C I q) (hab : a.Concurs C I b) :
    Eval.Concurs C I I (Progress.Concurs C I) (bindArgument f p a) (bindArgument f q b) := by
  unfold bindArgument
  rw [hab.label]
  split
  next x _ => exact concurs_bindNamed hpq hab x
  next => exact concurs_bindNext hpq hab

/-- Evaluation in scopes that hold the same comes to the same. -/
def Reduces (C : Comparison) (reduce reduce' : Scope → Expr → Eval Expr) : Prop :=
  ∀ {s t : Scope}, s.Like C.places C.depths t → ∀ e,
    InStep C (Same Expr.bare C.places) (reduce s e) (reduce' t e)

theorem inStep_bindDefault (h : Reduces C reduce reduce')
    (hst : s.Like C.places C.depths t) (x : String) :
    InStep C (Scope.Like C.places C.depths) (bindDefault f reduce loc s x)
      (bindDefault f reduce' loc t x) := by
  unfold bindDefault
  rw [hst.has_eq]
  split
  · exact concurs_pure hst
  split
  · exact concurs_fail _ (.refl _ _ _)
  next e _ => exact (h hst e).bind fun v w hvw => concurs_pure (hst.define x hvw)

/-- What was written as surplus arguments is of no account once they are evaluated. -/
theorem define_bindSurplus (as : List Argument) (s : Scope) (v : Expr) :
    (bindSurplus f loc as s).define surplusVariable v = s.define surplusVariable v := by
  unfold bindSurplus
  split
  · rw [Scope.define, Scope.define, Scope.define, Bindings.set_set]
  · rfl

/-- Arguments are bound in states related by `I`, and defaults where the states are in step. -/
theorem concurs_bind (hI : ∀ s t, I s t → C.states s t) (h : Reduces C reduce reduce')
    (hcode : ∀ d, f = .declared d → C.code d.body)
    (hst : s.callee.Like C.places C.depths t.callee) {as bs : List Argument}
    (habs : List.Forall₂ (Argument.Concurs C I) as bs) :
    Eval.Concurs C I C.states (Concurs C I) (bind f reduce s loc as)
      (bind f reduce' t loc bs) := by
  unfold bind
  have hstart : Progress.Concurs C I { scope := s.callee, next := f.fixed }
      { scope := t.callee, next := f.fixed } := ⟨hst, rfl, rfl, .nil⟩
  have hargs := concurs_foldlM habs
    (fun p q a b hpq hab => concurs_bindArgument (f := f) hpq hab) hstart
  refine (hargs.mono hI).bind fun p q hpq => ?_
  have hfixed : List.Forall₂ Eq f.fixed f.fixed := List.forall₂_same.2 fun _ _ => rfl
  refine (concurs_foldlM hfixed (fun s t x y hst hxy => ?_) hpq.scope).bind
    fun s t hst => concurs_pure ?_
  · cases hxy
    exact inStep_bindDefault h hst x
  · refine ⟨rfl, hcode, fun hvariadic => ?_, fun hvw => ?_, rfl, hpq.surplus⟩
    · unfold bindSurplus
      rw [if_neg (by simp [hvariadic]), if_neg (by simp [hvariadic])]
      exact hst
    · rw [define_bindSurplus, define_bindSurplus]
      exact hst.define surplusVariable hvw

end Binding

/-! ## Surplus arguments -/

section Surplus

variable {a b : Activation} (h : a.Concurs C I b)
include h

/-- Surplus arguments are evaluated in states from which they come to the same. -/
theorem Concurs.reducedSurplus :
    Eval.Concurs C I I (Same Expr.bareAll C.places) a.reducedSurplus b.reducedSurplus :=
  (concurs_mapM h.surplus fun _ _ hab => hab.reduce).mono_value
    fun _ _ => Expr.same_of_forall₂

theorem Concurs.maxOf :
    Eval.Concurs C I I (Same Expr.bare C.places) a.maxOf b.maxOf := by
  have hempty : a.surplus.isEmpty = b.surplus.isEmpty := by
    rw [Bool.eq_iff_iff, List.isEmpty_iff_length_eq_zero, List.isEmpty_iff_length_eq_zero,
      h.surplus.length_eq]
  unfold Activation.maxOf
  rw [hempty, h.loc]
  split
  · exact concurs_fail _ (.refl _ _ _)
  · refine h.reducedSurplus.bind fun vs ws hvs => concurs_pure ?_
    rw [again, again, h.function, h.loc]
    exact Expr.same_again _ hvs _

end Surplus

end Activation

end AchievementLang

import AchievementLang.Proofs.Eval.BitsKept
import AchievementLang.Proofs.Eval.FunctionsKept
import AchievementLang.Proofs.Eval.Machine

/-!
# Evaluation on the machine

What the machine does from a control on, and what evaluation says that it comes to, are the same
(`Machine.Performs`): the machine reaches the control that goes on with the value, or the failure,
in the state that evaluation leaves, and the stack is as it was. There is one rule for each way in
which evaluations are put together; a frame stands for what follows on a value
(`Performs.frame`).

From an engine follows what it evaluates (`Engine.OnMachine.reduce`, `Engine.OnMachine.execute`).
What an engine leaves to others is evaluated one call deeper, or from the global scope for the sake
of `bit`. There the accessors of bits have to be those of the language, which they are in every
state of a run unless a script declares them anew (`State.BitsKept`).
-/

namespace AchievementLang

open Eval State

namespace Machine

/-! ## Runs of the machine -/

/-- A run of the machine leads from one configuration to the other. -/
def Reaches (limit : Int) (c c' : Config) : Prop := ∃ n, (step limit)^[n] c = c'

namespace Reaches

variable {limit : Int} {c c' c'' : Config}

theorem refl (c : Config) : Reaches limit c c := ⟨0, rfl⟩

theorem head (h : Reaches limit (step limit c) c') : Reaches limit c c' := by
  obtain ⟨n, hn⟩ := h
  exact ⟨n + 1, by rw [Function.iterate_succ_apply, hn]⟩

theorem trans (h : Reaches limit c c') (h' : Reaches limit c' c'') : Reaches limit c c'' := by
  obtain ⟨n, rfl⟩ := h
  obtain ⟨n', rfl⟩ := h'
  exact ⟨n' + n, Function.iterate_add_apply _ _ _ _⟩

end Reaches

section Performs

variable {limit : Int} {α β : Type} {start start' : State → List Frame → Config}
  {x : Eval α} {next : α → Control}

/-- From such a configuration the machine does what the evaluation says, and goes on from there. -/
def Performs (limit : Int) (start : State → List Frame → Config) (x : Eval α)
    (next : α → Control) : Prop :=
  ∀ s stack, BitsKept s →
    BitsKept (x.run s).2 ∧ Reaches limit (start s stack) (perform s stack next x)

theorem performs_pure {control : Control} {a : α} (h : control = next a) :
    Performs limit (.mk control) (pure a) next := by
  subst h
  exact fun _ _ hs => ⟨hs, .refl _⟩

theorem performs_fail (cause : Cause) (loc : Option Loc) :
    Performs limit (.mk (.failed (.at? cause loc))) (fail cause loc : Eval α) next :=
  fun _ _ hs => ⟨hs, .refl _⟩

theorem performs_ofExcept (r : Except Failure α) :
    Performs limit (.mk (.ofResult next r)) (Eval.ofExcept r) next :=
  fun _ _ hs => ⟨hs, .refl _⟩

/-- What is carried out at once. -/
theorem performs_atOnce {y : Eval α} (h : KeepsFunctions x) (hy : y = x) :
    Performs limit (fun s stack => perform s stack next x) y next := by
  subst hy
  exact fun s _ hs => ⟨hs.of_functions (h s), .refl _⟩

/-- What a name denotes is looked up, of which something is known. -/
theorem performs_function? {Q : Option Function → Prop} {name : String}
    {f : Option Function → Eval α} (start : Option Function → State → List Frame → Config)
    (hQ : ∀ s, BitsKept s → Q (s.functions.get? name))
    (hf : ∀ g, Q g → Performs limit (start g) (f g) next) :
    Performs limit (fun s stack => start (s.functions.get? name) s stack) (function? name >>= f)
      next :=
  fun s stack hs => hf (s.functions.get? name) (hQ s hs) s stack hs

/-- What follows on a note that something happened. -/
theorem Performs.record (h : Performs limit start x next) (e : Event) :
    Performs limit (fun s stack => start { s with events := e :: s.events } stack)
      (Eval.record e >>= fun _ => x) next :=
  fun _ stack hs => h _ stack (hs.of_functions rfl)

theorem Performs.of_step (h : Performs limit start' x next)
    (hstep : ∀ s stack, step limit (start s stack) = start' s stack) :
    Performs limit start x next := by
  intro s stack hs
  obtain ⟨hs', hreach⟩ := h s stack hs
  rw [← hstep] at hreach
  exact ⟨hs', hreach.head⟩

/-- What follows on a value of which something is known. -/
theorem Performs.bind_of {Q : α → Prop} {f : α → Eval β} {next' : β → Control}
    (hx : Performs limit start x next) (hQ : ∀ s a, (x.run s).1 = .ok a → Q a)
    (hf : ∀ a, Q a → Performs limit (.mk (next a)) (f a) next') :
    Performs limit start (x >>= f) next' := by
  intro s stack hs
  obtain ⟨hs', hreach⟩ := hx s stack hs
  have hQ := hQ s
  unfold perform at hreach ⊢
  rw [run_bind]
  generalize x.run s = r at hs' hreach hQ ⊢
  obtain ⟨_ | a, s'⟩ := r
  -- The failure is the same for the rest, at any type.
  · exact ⟨hs', hreach⟩
  · obtain ⟨hs'', hreach'⟩ := hf a (hQ a rfl) s' stack hs'
    exact ⟨hs'', hreach.trans hreach'⟩

theorem Performs.bind {f : α → Eval β} {next' : β → Control} (hx : Performs limit start x next)
    (hf : ∀ a, Performs limit (.mk (next a)) (f a) next') :
    Performs limit start (x >>= f) next' :=
  hx.bind_of (Q := fun _ => True) (fun _ _ _ => trivial) fun a _ => hf a

/-- What is evaluated under a frame: a value goes to the frame, which goes on with it, and a failure
passes by. -/
theorem Performs.frame {f : α → Eval β} {next' : β → Control}
    (hx : Performs limit start x next) (frame : Frame) (goOn : α → State → List Frame → Config)
    (hvalue : ∀ a s stack, step limit ⟨next a, s, frame :: stack⟩ = goOn a s stack)
    (hfail : ∀ g, frame.fail g = .failed g) (hf : ∀ a, Performs limit (goOn a) (f a) next') :
    Performs limit (fun s stack => start s (frame :: stack)) (x >>= f) next' := by
  intro s stack hs
  obtain ⟨hs', hreach⟩ := hx s (frame :: stack) hs
  unfold perform at hreach ⊢
  rw [run_bind]
  generalize x.run s = r at hs' hreach ⊢
  obtain ⟨g | a, s'⟩ := r
  · refine ⟨hs', hreach.trans (.head ?_)⟩
    rw [Control.ofResult, step, hfail]
    exact .refl _
  · obtain ⟨hs'', hreach'⟩ := hf a s' stack hs'
    refine ⟨hs'', hreach.trans (.head ?_)⟩
    rw [Control.ofResult, hvalue]
    exact hreach'

/-! ## Lists -/

theorem performs_reduceAll {scope : Scope} {f : Expr → Eval Expr} {es : List Expr}
    (h : ∀ e ∈ es, Performs limit (.mk (.reduce scope e)) (f e) .value) (values : List Expr) :
    Performs limit (.mk (.reduceAll scope values es)) (es.mapM f)
      (fun vs => .values (values ++ vs)) := by
  induction es generalizing values with
  | nil =>
    have hvalues : Control.values values = .values (values ++ []) := by rw [List.append_nil]
    exact (performs_pure hvalues).of_step fun _ _ => rfl
  | cons e rest ih =>
    obtain ⟨he, hrest⟩ := List.forall_mem_cons.1 h
    rw [List.mapM_cons]
    refine (he.frame (.item scope values rest)
      (fun v => .mk (.reduceAll scope (values ++ [v]) rest)) (fun _ _ _ => rfl)
      (fun _ => rfl) fun v => ?_).of_step fun _ _ => rfl
    refine (ih hrest (values ++ [v])).bind fun vs => performs_pure ?_
    rw [List.append_assoc, List.singleton_append]

end Performs

end Machine

/-! ## Binding -/

/-- An argument of a call without its label. -/
def Expr.argument : Expr → Expr
  | .assign _ e _ => e
  | e => e

/-- An argument without a label, to be evaluated in the scope. -/
def Engine.unlabelled (m : Engine) (scope : Scope) (e : Expr) : Argument :=
  { label := none, source := e, loc := e.loc, reduce := m.reduce scope e }

namespace Machine

/-- The machine evaluates an expression to what the engine says. -/
def Reduces (limit : Int) (m : Engine) (scope : Scope) (e : Expr) : Prop :=
  Performs limit (.mk (.reduce scope e)) (m.reduce scope e) .value

/-- What has been bound, with the surplus arguments suspended. -/
def Bound.progress (m : Engine) (caller : Scope) (b : Bound) : Activation.Progress :=
  { scope := b.scope, next := b.next, labelled := b.labelled,
    surplus := b.surplus.map (m.unlabelled caller) }

section Binding

variable {limit : Int} {m : Engine} {c : Call} {α : Type} {next : α → Control}

theorem performs_bindNamed {k : Activation.Progress → Eval α} {b : Bound} {e : Expr}
    (he : Reduces limit m c.caller e) (x : String) (loc : Option Loc) (rest : List Expr)
    (hk : ∀ v, Performs limit
      (.mk (.bind c { b with scope := b.scope.define x v, labelled := true } rest))
      (k (Bound.progress m c.caller { b with scope := b.scope.define x v, labelled := true }))
      next) :
    Performs limit (fun s stack => bindNamed s stack c b x e loc rest)
      (Activation.bindNamed c.function (b.progress m c.caller) x
        { label := some x, source := e, loc := loc, reduce := m.reduce c.caller e } >>= k)
      next := by
  have hscope : (b.progress m c.caller).scope = b.scope := rfl
  intro s stack hs
  unfold bindNamed Activation.bindNamed
  rw [hscope]
  split
  · exact performs_fail _ _ s stack hs
  split
  · exact performs_fail _ _ s stack hs
  rw [bind_assoc]
  refine (he.frame (.argument c { b with labelled := true } x rest)
    (fun v => .mk (.bind c { b with scope := b.scope.define x v, labelled := true } rest))
    (fun _ _ _ => rfl) (fun _ => rfl) fun v => ?_) s stack hs
  rw [pure_bind]
  exact hk v

/-- An argument without a label is evaluated if there is a parameter left, else it is kept. -/
theorem performs_bindNext {k : Activation.Progress → Eval α} {b : Bound} {e : Expr}
    (he : Reduces limit m c.caller e) (rest : List Expr)
    (hk : ∀ b' : Bound, (∃ x v, b'.scope = b.scope.define x v) ∧ b'.surplus = b.surplus ∨
        b'.scope = b.scope ∧ b'.surplus = b.surplus ++ [e] →
      Performs limit (.mk (.bind c b' rest)) (k (b'.progress m c.caller)) next) :
    Performs limit (fun s stack => bindNext s stack c b e rest)
      (Activation.bindNext c.function (b.progress m c.caller) (m.unlabelled c.caller e) >>= k)
      next := by
  obtain ⟨scope, params, labelled, surplus⟩ := b
  cases labelled with
  | true => exact performs_fail .positionalAfterNamed e.loc
  | false =>
    cases params with
    | cons x params =>
      have hbound := he.frame (.argument c ⟨scope, params, false, surplus⟩ x rest)
        (fun v => .mk (.bind c ⟨scope.define x v, params, false, surplus⟩ rest))
        (fun _ _ _ => rfl) (fun _ => rfl) fun v => hk _ (.inl ⟨⟨x, v, rfl⟩, rfl⟩)
      simpa only [bindNext, Activation.bindNext, Bound.progress, Engine.unlabelled,
        Bool.false_eq_true, if_false, bind_assoc, pure_bind] using hbound
    | nil =>
      have hk' := hk ⟨scope, [], false, surplus ++ [e]⟩ (.inr ⟨rfl, rfl⟩)
      simp only [bindNext, Activation.bindNext, Bound.progress, Bool.false_eq_true, if_false]
      cases hvariadic : c.function.isVariadic with
      | true => simpa [Bound.progress] using hk'
      | false => exact performs_fail (.tooManyArguments c.function.name) e.loc

/-- **Binding arguments.** What follows is done at the depth of the function's scope, and with
surplus arguments that can be evaluated. -/
theorem performs_arguments {k : Activation.Progress → Eval α} {d : Nat} {args : List Expr}
    (hargs : ∀ e ∈ args, Reduces limit m c.caller e.argument)
    (hk : ∀ b : Bound, b.scope.depth = d → (∀ e ∈ b.surplus, Reduces limit m c.caller e) →
      Performs limit (.mk (.fill c b.surplus b.scope c.function.fixed)) (k (b.progress m c.caller))
        next)
    {b : Bound} (hdepth : b.scope.depth = d)
    (hsurplus : ∀ e ∈ b.surplus, Reduces limit m c.caller e) :
    Performs limit (.mk (.bind c b args))
      ((m.arguments c.caller args).foldlM (Activation.bindArgument c.function)
        (b.progress m c.caller) >>= k) next := by
  induction args generalizing b with
  | nil =>
    rw [Engine.arguments, List.foldlM_nil, pure_bind]
    exact (hk b hdepth hsurplus).of_step fun _ _ => rfl
  | cons e rest ih =>
    obtain ⟨he, hrest⟩ := List.forall_mem_cons.1 hargs
    cases e with
    | assign x e loc =>
      rw [Engine.arguments, List.foldlM_cons, bind_assoc]
      exact (performs_bindNamed (b := b) he x loc rest fun v =>
        ih (b := { b with scope := b.scope.define x v, labelled := true }) hrest hdepth
          hsurplus).of_step fun _ _ => rfl
    | _ =>
      rw [Engine.arguments, List.foldlM_cons, bind_assoc]
      · refine (performs_bindNext he rest fun b' hb' => ih hrest ?_ ?_).of_step fun _ _ => rfl
        · obtain ⟨⟨x, v, hscope⟩, -⟩ | ⟨hscope, -⟩ := hb'
          · rw [hscope, Scope.depth_define, hdepth]
          · rw [hscope, hdepth]
        · obtain ⟨-, hb'⟩ | ⟨-, hb'⟩ := hb'
          · rwa [hb']
          · rw [hb']
            exact List.forall_mem_append.2 ⟨hsurplus, by simpa using he⟩
      · simp

/-- **Binding defaults**, which are evaluated at the depth of the function's scope. -/
theorem performs_fill {k : Scope → Eval α} {d : Nat} {reduce : Scope → Expr → Eval Expr}
    (hreduce : ∀ scope e, scope.depth = d →
      Performs limit (.mk (.reduce scope e)) (reduce scope e) .value)
    (surplus : List Expr)
    (hk : ∀ scope, scope.depth = d →
      Performs limit (.mk (.enter c surplus (c.bindSurplus surplus scope))) (k scope) next)
    (params : List String) {scope : Scope} (hdepth : scope.depth = d) :
    Performs limit (.mk (.fill c surplus scope params))
      (params.foldlM (Activation.bindDefault c.function reduce c.loc) scope >>= k) next := by
  induction params generalizing scope with
  | nil =>
    rw [List.foldlM_nil, pure_bind]
    exact (hk scope hdepth).of_step fun _ _ => rfl
  | cons x rest ih =>
    rw [List.foldlM_cons, bind_assoc]
    suffices h : Performs limit (fun s stack => bindDefault s stack c surplus scope x rest) _ next
      from h.of_step fun _ _ => rfl
    rw [Activation.bindDefault]
    unfold bindDefault
    split
    · rw [pure_bind]
      exact ih hdepth
    · cases c.function.defaults.get? x with
      | none => exact performs_fail _ _
      | some e =>
        have hdefine (v : Expr) : (scope.define x v).depth = d := hdepth
        have hbound := (hreduce scope e hdepth).frame (.default c surplus scope x rest)
          (fun v => .mk (.fill c surplus (scope.define x v) rest))
          (fun _ _ _ => rfl) (fun _ => rfl) fun v => ih (hdefine v)
        simpa only [bind_assoc, pure_bind] using hbound

end Binding

end Machine

/-! ## Calls -/

namespace Activation

variable (a : Activation) (surplus : List Argument)

theorem param_surplus (x : String) : { a with surplus := surplus }.param x = a.param x := rfl

theorem string_surplus (x : String) : { a with surplus := surplus }.string x = a.string x := rfl

theorem integer_surplus (x : String) : { a with surplus := surplus }.integer x = a.integer x := rfl

theorem line_surplus : { a with surplus := surplus }.line = a.line := rfl

/-- Surplus arguments do not matter to `achievement`. -/
theorem registerAchievement_surplus :
    { a with surplus := surplus }.registerAchievement = a.registerAchievement := by
  simp only [registerAchievement, param_surplus, string_surplus, integer_surplus, line_surplus]

/-- Surplus arguments do not matter to `leaderboard`. -/
theorem registerLeaderboard_surplus :
    { a with surplus := surplus }.registerLeaderboard = a.registerLeaderboard := by
  simp only [registerLeaderboard, param_surplus, string_surplus, line_surplus]

end Activation

namespace Machine

/-- The machine runs statements from a configuration on, with the outcome that evaluation says. -/
def RunsTo (limit : Int) (d : Nat) (c : Config) (r : Engine.Outcome × State)
    (stack : List Frame) : Prop :=
  BitsKept r.2 ∧ r.1.1.depth = d ∧ Reaches limit c ⟨.ran r.1.1 r.1.2, r.2, stack⟩

/-- Statements are run by the machine for the value that the evaluation says. -/
def Runs (limit : Int) (scope : Scope) (body : List Expr) (x : Eval (Option Expr)) : Prop :=
  ∀ s stack, BitsKept s → BitsKept (x.run s).2 ∧ ∃ scope',
    Reaches limit ⟨.run scope body, s, stack⟩ ⟨.ran scope' (x.run s).1, (x.run s).2, stack⟩

theorem Runs.performs {limit : Int} {scope : Scope} {body : List Expr} {x : Eval (Option Expr)}
    (h : Runs limit scope body x) (c : Call) :
    Performs limit (fun s stack => ⟨.run scope body, s, .body c :: stack⟩) x c.returned := by
  intro s stack hs
  obtain ⟨hs', scope', hreach⟩ := h s (.body c :: stack) hs
  exact ⟨hs', hreach.trans (.head (.refl _))⟩

theorem Call.depth_bindSurplus (c : Call) (surplus : List Expr) (scope : Scope) :
    (c.bindSurplus surplus scope).depth = scope.depth := by
  unfold bindSurplus
  split <;> rfl

theorem Call.bindSurplus_suspended (c : Call) (m : Engine) (surplus : List Expr) (scope : Scope) :
    Activation.bindSurplus c.function c.loc (surplus.map (m.unlabelled c.caller)) scope =
      c.bindSurplus surplus scope := by
  have hsource : ((fun a => a.source) ∘ m.unlabelled c.caller) = id := rfl
  rw [Activation.bindSurplus, List.map_map, hsource, List.map_id, bindSurplus]

/-- The call with its parameters bound, and the surplus arguments suspended. -/
def Call.suspended (c : Call) (m : Engine) (surplus : List Expr) (scope : Scope) : Activation :=
  { function := c.function, scope := scope, surplus := surplus.map (m.unlabelled c.caller),
    loc := c.loc }

end Machine

open Machine

/-- What is evaluated one call deeper is what the machine does at that depth. -/
structure Inner.OnMachine (limit : Int) (d : Nat) (inner : Inner) : Prop where
  reduce : ∀ scope e, scope.depth = d →
    Performs limit (.mk (.reduce scope e)) (inner.reduce scope e) .value
  run : ∀ scope body, scope.depth = d → LeavesBits body →
    Runs limit scope body (inner.run scope body)

/-- What starts over from the global scope is what the machine does there, for the calls that `bit`
stands for. -/
def RestartOnMachine (limit : Int) (restart : Scope → Expr → Eval Expr) : Prop :=
  ∀ scope i n l l', scope.depth = 0 →
    Performs limit (.mk (.reduce scope (.call (Wire.Size.bit i).name [.integer n l] l')))
      (restart scope (.call (Wire.Size.bit i).name [.integer n l] l')) .value

/-- All that an engine leaves to others is what the machine does, for scopes of the depth. -/
structure Engine.OnMachine (limit : Int) (d : Nat) (m : Engine) : Prop where
  limit_eq : m.limit = limit
  none : m.inner = none → limit ≤ d
  inner : ∀ inner ∈ m.inner, ¬ limit ≤ d ∧ inner.OnMachine limit (d + 1)
  restart : RestartOnMachine limit m.restart

namespace Machine

section Calls

variable {limit : Int} {d : Nat} {m : Engine} {inner : Inner} {c : Call} {surplus : List Expr}
  {scope : Scope}

/-- The surplus arguments are evaluated in the scope of the caller. -/
theorem performs_reducedSurplus (hsurplus : ∀ e ∈ surplus, Reduces limit m c.caller e)
    (scope : Scope) :
    Performs limit (.mk (.reduceAll c.caller [] surplus))
      (c.suspended m surplus scope).reducedSurplus .values := by
  have h := performs_reduceAll hsurplus []
  rw [Activation.reducedSurplus, Call.suspended, List.mapM_map]
  exact h

theorem performs_startBody (hinner : inner.OnMachine limit (d + 1)) {decl : Declaration}
    (hbody : LeavesBits decl.body) (hsurplus : ∀ e ∈ surplus, Reduces limit m c.caller e)
    (hdepth : scope.depth = d + 1) :
    Performs limit (fun s stack => startBody s stack c surplus scope decl.body)
      ((c.suspended m surplus scope).runDeclared inner decl) c.returned := by
  have hvariadic : (c.suspended m surplus scope).function.isVariadic = c.function.isVariadic := rfl
  unfold startBody Activation.runDeclared
  rw [hvariadic]
  split
  · refine (performs_reducedSurplus hsurplus scope).frame (.surplus c scope decl.body)
      (fun vs s stack => ⟨.run (scope.define surplusVariable (.array vs c.loc)) decl.body,
        s, .body c :: stack⟩) (fun _ _ _ => rfl) (fun _ => rfl) fun vs => ?_
    exact (hinner.run (scope.define surplusVariable (.array vs c.loc)) decl.body hdepth
      hbody).performs c
  · exact (hinner.run scope decl.body hdepth hbody).performs c

/-- What a call of `bit` stands for is a call of the accessor of a bit, at a number. -/
theorem exists_of_bit {a : Activation} {s : State} {e : Expr} (h : (a.bit.run s).1 = .ok e) :
    ∃ i n l l', e = .call (Wire.Size.bit i).name [.integer n l] l' := by
  rw [Activation.bit, run_bind] at h
  split at h
  next index loc s' hindex =>
    dsimp only at h
    split at h
    · rw [run_bind] at h
      split at h
      next address l s'' haddress =>
        cases h
        exact ⟨_, _, _, _, rfl⟩
      next => cases h
    · cases h
  next => cases h

/-- The value of a call. -/
theorem performs_enterValue (hm : m.OnMachine limit d) (hinner : inner.OnMachine limit (d + 1))
    (hc : c.function.LeavesBits) (hpurpose : c.purpose = .value ∨ c.function.isBuiltin = true)
    (hsurplus : ∀ e ∈ surplus, Reduces limit m c.caller e) (hdepth : scope.depth = d + 1) :
    Performs limit (fun s stack => enterValue s stack c surplus scope)
      ((c.suspended m surplus scope).reduce m inner) .value := by
  have hreduced := performs_reducedSurplus hsurplus scope
  obtain ⟨purpose, name, f, caller, loc⟩ := c
  cases f with
  | accessor size => exact performs_atOnce (Activation.keepsFunctions_accessor _) rfl
  | bit =>
    refine (performs_atOnce (Activation.keepsFunctions_bit _) rfl).bind_of
      (fun s e => exists_of_bit) fun e he => ?_
    obtain ⟨i, n, l, l', rfl⟩ := he
    exact hm.restart _ i n l l' rfl
  | prev => exact performs_atOnce (Activation.keepsFunctions_prev _) rfl
  | once | never | pausing => exact performs_atOnce (Activation.keepsFunctions_around _) rfl
  | repeated => exact performs_atOnce (Activation.keepsFunctions_repeated _) rfl
  | constant holds => exact performs_pure rfl
  | maxOf =>
    cases surplus with
    | nil => exact performs_fail .nothingToCompare loc
    | cons e rest =>
      exact hreduced.frame (.largest ⟨purpose, name, .maxOf, caller, loc⟩)
        (fun vs => .mk (.value (.call Function.maxOf.name vs loc))) (fun _ _ _ => rfl)
        (fun _ => rfl) fun vs => performs_pure rfl
  | achievement | leaderboard => exact performs_fail _ _
  | declared decl =>
    obtain rfl : purpose = .value := hpurpose.resolve_right nofun
    refine (performs_startBody hinner (hc decl rfl) hsurplus hdepth).bind fun v => ?_
    cases v with
    | none => exact performs_fail _ _
    | some v => exact performs_pure rfl

theorem Call.registerAchievement_suspended (c : Call) :
    (c.suspended m surplus scope).registerAchievement =
      (c.activation scope).registerAchievement :=
  Activation.registerAchievement_surplus (c.activation scope) _

theorem Call.registerLeaderboard_suspended (c : Call) :
    (c.suspended m surplus scope).registerLeaderboard =
      (c.activation scope).registerLeaderboard :=
  Activation.registerLeaderboard_surplus (c.activation scope) _

/-- The effect of a call. -/
theorem performs_enterEffect (hm : m.OnMachine limit d) (hinner : inner.OnMachine limit (d + 1))
    (hc : c.function.LeavesBits) (hpurpose : c.purpose = .effect)
    (hsurplus : ∀ e ∈ surplus, Reduces limit m c.caller e) (hdepth : scope.depth = d + 1) :
    Performs limit (fun s stack => enterEffect s stack c surplus scope)
      ((c.suspended m surplus scope).evaluate m inner) fun _ => .finished := by
  have hdiscard (hbuiltin : c.function.isBuiltin = true) :
      Performs limit (fun s stack => enterValue s (.discarding :: stack) c surplus scope)
        ((c.suspended m surplus scope).reduce m inner >>= fun _ => pure ()) fun _ => .finished :=
    (performs_enterValue hm hinner hc (.inr hbuiltin) hsurplus hdepth).frame .discarding
      (fun _ => .mk .finished) (fun _ _ _ => rfl) (fun _ => rfl) fun _ => performs_pure rfl
  obtain ⟨purpose, name, f, caller, loc⟩ := c
  obtain rfl : purpose = .effect := hpurpose
  cases f with
  | achievement =>
    exact performs_atOnce (Activation.keepsFunctions_registerAchievement _)
      (Call.registerAchievement_suspended _)
  | leaderboard =>
    exact performs_atOnce (Activation.keepsFunctions_registerLeaderboard _)
      (Call.registerLeaderboard_suspended ⟨.effect, name, .leaderboard, caller, loc⟩)
  | declared decl =>
    exact (performs_startBody hinner (hc decl rfl) hsurplus hdepth).bind fun v => performs_pure rfl
  | _ => exact hdiscard rfl

/-- **Binding the parameters of a function.** -/
theorem performs_bindCall {α : Type} {k : Activation → Eval α} {next : α → Control}
    (hinner : inner.OnMachine limit (d + 1)) (hdepth : c.caller.depth = d) {args : List Expr}
    (hargs : ∀ e ∈ args, Reduces limit m c.caller e.argument)
    (hk : ∀ surplus callee, (∀ e ∈ surplus, Reduces limit m c.caller e) →
      callee.depth = d + 1 →
      Performs limit (.mk (.enter c surplus callee)) (k (c.suspended m surplus callee)) next) :
    Performs limit
      (.mk (.bind c { scope := c.caller.callee, next := c.function.fixed } args))
      (Activation.bind c.function inner.reduce c.caller c.loc (m.arguments c.caller args) >>= k)
      next := by
  have hcaller : c.caller.callee.depth = d + 1 := by rw [Scope.depth_callee, hdepth]
  rw [Activation.bind, bind_assoc]
  refine performs_arguments hargs (fun b hb hsurplus => ?_) hcaller (List.forall_mem_nil _)
  rw [bind_assoc]
  refine performs_fill hinner.reduce b.surplus (fun callee hcallee => ?_) c.function.fixed hb
  have hbound : Activation.bindSurplus c.function c.loc (b.progress m c.caller).surplus callee =
      c.bindSurplus b.surplus callee := c.bindSurplus_suspended m b.surplus callee
  rw [pure_bind, hbound]
  exact hk b.surplus _ hsurplus ((c.depth_bindSurplus b.surplus callee).trans hcallee)

/-- **A call**, up to where its parameters are bound. -/
theorem performs_startCall {α : Type} {k : Inner × Activation → Eval α} {next : α → Control}
    (hm : m.OnMachine limit d) (hdepth : scope.depth = d) {args : List Expr}
    (hargs : ∀ e ∈ args, Reduces limit m scope e.argument) (purpose : Purpose) (name : String)
    (loc : Option Loc)
    (hk : ∀ (f : Function) (inner : Inner) (surplus : List Expr) (callee : Scope),
      f.LeavesBits → inner.OnMachine limit (d + 1) → (∀ e ∈ surplus, Reduces limit m scope e) →
      callee.depth = d + 1 →
      Performs limit (.mk (.enter ⟨purpose, name, f, scope, loc⟩ surplus callee))
        (k (inner, Call.suspended ⟨purpose, name, f, scope, loc⟩ m surplus callee)) next) :
    Performs limit (.mk (.call purpose scope name args loc))
      (m.enter scope name (m.arguments scope args) loc >>= k) next := by
  rw [Engine.enter, Engine.resolve, bind_assoc, bind_assoc]
  suffices h : Performs limit (fun s stack =>
      startCall s stack limit purpose scope name args loc (s.functions.get? name)) _ next
    from h.of_step fun _ _ => rfl
  refine performs_function? (Q := fun f => ∀ g ∈ f, g.LeavesBits)
    (fun f s stack => startCall s stack limit purpose scope name args loc f)
    (fun s hs _ hg => hs.bodies hg) fun f hf => ?_
  cases f with
  | none => exact performs_fail _ _
  | some f =>
    unfold startCall
    rw [pure_bind]
    cases hinner : m.inner with
    | none =>
      simp only [if_pos (hdepth ▸ hm.none hinner), hm.limit_eq]
      exact performs_fail _ _
    | some inner =>
      obtain ⟨hlimit, hinner⟩ := hm.inner inner hinner
      simp only [if_neg (hdepth ▸ hlimit), bind_assoc, pure_bind]
      exact performs_bindCall (c := ⟨purpose, name, f, scope, loc⟩) hinner hdepth hargs
        fun surplus callee => hk f inner surplus callee (hf f rfl) hinner

/-- **A call as an expression.** -/
theorem performs_call (hm : m.OnMachine limit d) (hdepth : scope.depth = d) {args : List Expr}
    (hargs : ∀ e ∈ args, Reduces limit m scope e.argument) (name : String) (loc : Option Loc) :
    Performs limit (.mk (.call .value scope name args loc))
      (m.call scope name (m.arguments scope args) loc) .value := by
  refine performs_startCall hm hdepth hargs .value name loc
    fun f inner surplus callee hf hinner hsurplus hcallee => ?_
  have hvalue := performs_enterValue (c := ⟨.value, name, f, scope, loc⟩) hm hinner hf (.inl rfl)
    hsurplus hcallee
  exact (hvalue.record (.reducing name callee.depth)).of_step fun _ _ => rfl

/-- **A call as a statement.** -/
theorem performs_perform (hm : m.OnMachine limit d) (hdepth : scope.depth = d) {args : List Expr}
    (hargs : ∀ e ∈ args, Reduces limit m scope e.argument) (name : String) (loc : Option Loc) :
    Performs limit (.mk (.call .effect scope name args loc))
      (m.perform scope name (m.arguments scope args) loc) fun _ => .finished := by
  refine performs_startCall hm hdepth hargs .effect name loc
    fun f inner surplus callee hf hinner hsurplus hcallee => ?_
  have heffect := performs_enterEffect (c := ⟨.effect, name, f, scope, loc⟩) hm hinner hf rfl
    hsurplus hcallee
  exact (heffect.record (.evaluating name callee.depth)).of_step fun _ _ => rfl

end Calls

/-! ## Expressions -/

section Operands

variable {limit : Int} {m : Engine} {scope : Scope}

theorem performs_binary {f : Expr → Expr → Eval Expr} {a b : Expr} {loc : Option Loc}
    (node : Binary) (ha : Reduces limit m scope a) (hb : Reduces limit m scope b)
    (hf : ∀ a' b', f a' b' = Eval.ofExcept (node.combine a' b' loc)) :
    Performs limit (fun s stack => ⟨.reduce scope a, s, .left node scope b loc :: stack⟩)
      (do f (← m.reduce scope a) (← m.reduce scope b)) .value := by
  refine ha.frame (.left node scope b loc)
    (fun a' s stack => ⟨.reduce scope b, s, .right node a' loc :: stack⟩)
    (fun _ _ _ => rfl) (fun _ => rfl) fun a' => ?_
  refine hb.frame (.right node a' loc)
    (fun b' => .mk (.ofResult .value (node.combine a' b' loc)))
    (fun _ _ _ => rfl) (fun _ => rfl) fun b' => ?_
  rw [hf]
  exact performs_ofExcept _

theorem performs_listing {es : List Expr} (hes : ∀ e ∈ es, Reduces limit m scope e) (node : Listing)
    (loc : Option Loc) :
    Performs limit (fun s stack => ⟨.reduceAll scope [] es, s, .listing node loc :: stack⟩)
      (do return node.node (← m.reduceAll scope es) loc) .value := by
  have hall : m.reduceAll scope es = es.mapM (m.reduce scope) := by
    clear hes
    induction es with
    | nil => rfl
    | cons e rest ih => rw [Engine.reduceAll, ih, List.mapM_cons]
  rw [hall]
  exact (performs_reduceAll hes []).frame (.listing node loc)
    (fun vs => .mk (.value (node.node vs loc))) (fun _ _ _ => rfl) (fun _ => rfl)
    fun vs => performs_pure rfl

end Operands

end Machine

namespace Engine.OnMachine

variable {limit : Int} {d : Nat} {m : Engine} {scope : Scope}

mutual

/-- **The value of an expression**, by the machine and by the engine. -/
theorem reduce (hm : m.OnMachine limit d) (hdepth : scope.depth = d) (e : Expr) :
    Reduces limit m scope e := by
  unfold Reduces
  cases e with
  | string text l =>
    rw [Engine.reduce]
    exact (performs_pure rfl).of_step fun _ _ => rfl
  | integer n l =>
    rw [Engine.reduce]
    exact (performs_pure rfl).of_step fun _ _ => rfl
  | var x l =>
    rw [Engine.reduce]
    suffices h : Performs limit (fun s stack => startReduce s stack scope (.var x l)) _ .value
      from h.of_step fun _ _ => rfl
    simp only [startReduce]
    cases scope.get? x with
    | none => exact performs_fail _ _
    | some v => exact performs_pure rfl
  | call name args l =>
    rw [Engine.reduce]
    exact (performs_call hm hdepth (hm.arguments hdepth args) name l).of_step fun _ _ => rfl
  | compare r a b l =>
    rw [Engine.reduce]
    exact (performs_binary (.compare r) (hm.reduce hdepth a) (hm.reduce hdepth b)
      fun _ _ => rfl).of_step fun _ _ => rfl
  | math op a b l =>
    rw [Engine.reduce]
    exact (performs_binary (.math op) (hm.reduce hdepth a) (hm.reduce hdepth b)
      fun _ _ => rfl).of_step fun _ _ => rfl
  | not e l =>
    rw [Engine.reduce]
    exact ((hm.reduce hdepth e).frame (.negation l)
      (fun v => .mk (.value (.not v l))) (fun _ _ _ => rfl) (fun _ => rfl)
      fun _ => performs_pure rfl).of_step fun _ _ => rfl
  | logic op es l =>
    rw [Engine.reduce]
    exact (performs_listing (hm.reduceAll hdepth es) (.logic op) l).of_step fun _ _ => rfl
  | array es l =>
    rw [Engine.reduce]
    exact (performs_listing (hm.reduceAll hdepth es) .array l).of_step fun _ _ => rfl
  | assign x e l =>
    rw [Engine.reduce]
    exact (performs_fail _ _).of_step fun _ _ => rfl
  | ret e l =>
    rw [Engine.reduce]
    exact (performs_fail _ _).of_step fun _ _ => rfl
  | declare f params defaults body l =>
    rw [Engine.reduce]
    exact (performs_fail _ _).of_step fun _ _ => rfl

theorem reduceAll (hm : m.OnMachine limit d) (hdepth : scope.depth = d) (es : List Expr) :
    ∀ e ∈ es, Reduces limit m scope e := by
  cases es with
  | nil => exact List.forall_mem_nil _
  | cons e rest =>
    exact List.forall_mem_cons.2 ⟨hm.reduce hdepth e, hm.reduceAll hdepth rest⟩

theorem arguments (hm : m.OnMachine limit d) (hdepth : scope.depth = d) (es : List Expr) :
    ∀ e ∈ es, Reduces limit m scope e.argument := by
  cases es with
  | nil => exact List.forall_mem_nil _
  | cons e rest =>
    have hrest := hm.arguments hdepth rest
    cases e with
    | assign x e l => exact List.forall_mem_cons.2 ⟨hm.reduce hdepth e, hrest⟩
    | _ => exact List.forall_mem_cons.2 ⟨hm.reduce hdepth _, hrest⟩

end

/-! ## Statements -/

/-- **Running statements**, by the machine and by the engine. The scope stays at its depth. -/
theorem execute (hm : m.OnMachine limit d) {body : List Expr} (hbody : LeavesBits body)
    (hdepth : scope.depth = d) {s : State} (hs : BitsKept s) (stack : List Frame) :
    RunsTo limit d ⟨.run scope body, s, stack⟩ ((m.execute scope body).run s) stack := by
  induction body generalizing scope s with
  | nil => exact ⟨hs, hdepth, .head (.refl _)⟩
  | cons e rest ih =>
    cases e with
    | ret e l =>
      obtain ⟨hs', hreach⟩ := hm.reduce hdepth e s (.returning scope :: stack) hs
      unfold Machine.perform at hreach
      rw [run_execute_ret]
      generalize (m.reduce scope e).run s = r at hs' hreach
      obtain ⟨_ | v, s'⟩ := r <;> exact ⟨hs', hdepth, .head (hreach.trans (.head (.refl _)))⟩
    | assign x e l =>
      obtain ⟨hs', hreach⟩ := hm.reduce hdepth e s (.assigning scope x rest :: stack) hs
      unfold Machine.perform at hreach
      rw [run_execute_assign]
      generalize (m.reduce scope e).run s = r at hs' hreach
      obtain ⟨_ | v, s'⟩ := r
      · exact ⟨hs', hdepth, .head (hreach.trans (.head (.refl _)))⟩
      · have hdefine : (scope.define x v).depth = d := hdepth
        obtain ⟨hs'', hdepth', hrest⟩ := ih hbody.tail hdefine hs'
        exact ⟨hs'', hdepth', .head (hreach.trans (.head hrest))⟩
    | declare name params defaults body l =>
      rw [run_execute_declare]
      split
      next h =>
        refine ⟨hs, hdepth, .head ?_⟩
        simp only [step, startRun, if_pos h]
        exact .refl _
      next h =>
        obtain ⟨hs', hdepth', hrest⟩ := ih hbody.tail hdepth
          (hs.declare (d := ⟨name, params, defaults, body⟩) hbody.body hbody.name_ne)
        refine ⟨hs', hdepth', .head ?_⟩
        simp only [step, startRun, if_neg h]
        exact hrest
    | call name args l =>
      obtain ⟨hs', hreach⟩ := performs_perform hm hdepth (hm.arguments hdepth args) name l s
        (.calling scope rest :: stack) hs
      unfold Machine.perform at hreach
      rw [run_execute_call]
      generalize (m.perform scope name (m.arguments scope args) l).run s = r at hs' hreach
      obtain ⟨_ | v, s'⟩ := r
      · exact ⟨hs', hdepth, .head (hreach.trans (.head (.refl _)))⟩
      · obtain ⟨hs'', hdepth', hrest⟩ := ih hbody.tail hdepth hs'
        exact ⟨hs'', hdepth', .head (hreach.trans (.head hrest))⟩
    -- The rest are no statements.
    | _ => exact ⟨hs, hdepth, .head (.refl _)⟩

theorem run (hm : m.OnMachine limit d) {body : List Expr} (hbody : LeavesBits body)
    (hdepth : scope.depth = d) : Runs limit scope body (m.run scope body) := by
  intro s stack hs
  obtain ⟨hs', -, hreach⟩ := hm.execute hbody hdepth hs stack
  exact ⟨hs', _, hreach⟩

end Engine.OnMachine

end AchievementLang

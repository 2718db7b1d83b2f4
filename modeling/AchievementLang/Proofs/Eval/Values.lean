import AchievementLang.Proofs.Eval.Engine
import AchievementLang.Proofs.Eval.LanguageKept

/-!
# Values evaluate to themselves

Variables hold values, and what a variable holds is not evaluated when the variable is; but a value
that stands among the arguments of a call is. That makes no difference, since **a value evaluates to
itself** (`Expr.IsReduced.gives`), as long as the functions of the language are what their names
denote and a call is permitted at all. Calls are the point: the arguments that a function of the
language leaves are those that it accepts, and it is worth the same call again.

`Eval.Gives s x v` says that `x` comes to `v` from every state like `s`, and adds nothing but to the
record of what happened. The rule for calls (`Engine.gives_enter`) is not only about values: it says
what any function is entered with, when as many arguments are given as it has parameters.
-/

namespace AchievementLang

/-- The states differ at most in the record of what happened. -/
structure State.Alike (s t : State) : Prop where
  functions : s.functions = t.functions
  registry : s.registry = t.registry

namespace State.Alike

variable {s t u : State}

theorem refl (s : State) : s.Alike s := ⟨rfl, rfl⟩

theorem symm (h : s.Alike t) : t.Alike s := ⟨h.functions.symm, h.registry.symm⟩

theorem trans (h : s.Alike t) (h' : t.Alike u) : s.Alike u :=
  ⟨h.functions.trans h'.functions, h.registry.trans h'.registry⟩

end State.Alike

namespace Eval

variable {α β : Type} {s : State} {a : α} {b : β}

/-- From every state like the given one the evaluation comes to the value, in such a state. -/
def Gives (s : State) (x : Eval α) (a : α) : Prop :=
  ∀ t, s.Alike t → ∃ t', x.run t = (.ok a, t') ∧ s.Alike t'

theorem gives_pure (s : State) (a : α) : Gives s (pure a) a := fun t ht => ⟨t, rfl, ht⟩

theorem Gives.bind {x : Eval α} {f : α → Eval β} (hx : Gives s x a) (hf : Gives s (f a) b) :
    Gives s (x >>= f) b := by
  intro t ht
  obtain ⟨u, hrun, hu⟩ := hx t ht
  rw [run_bind, hrun]
  exact hf u hu

theorem gives_record (s : State) (e : Event) : Gives s (record e) () :=
  fun t ht => ⟨{ t with events := e :: t.events }, rfl, ht.functions, ht.registry⟩

theorem gives_function? (s : State) (name : String) :
    Gives s (function? name) (s.functions.get? name) :=
  fun t ht => ⟨t, by rw [run_function?, ht.functions], ht⟩

theorem gives_mapM {f : α → Eval β} {as : List α} {bs : List β}
    (h : List.Forall₂ (fun a b => Gives s (f a) b) as bs) : Gives s (as.mapM f) bs := by
  induction h with
  | nil => exact gives_pure s []
  | cons hab _ ih =>
    rw [List.mapM_cons]
    exact hab.bind (ih.bind (gives_pure s _))

end Eval

open Eval

variable {s : State}

/-! ## Binding arguments without labels -/

/-- No function of the language has two parameters of one name. -/
theorem Function.nodup_params {f : Function} (hf : f.isBuiltin = true) : f.params.Nodup := by
  have h : ∀ f ∈ all, f.params.Nodup := by decide
  exact h f (mem_all hf)

theorem Bindings.has_zip {α : Type} {xs : List String} {vs : List α}
    (hlength : xs.length = vs.length) {x : String} (hx : x ∈ xs) :
    Bindings.has (xs.zip vs) x = true := by
  induction xs generalizing vs with
  | nil => cases hx
  | cons y ys ih =>
    obtain ⟨v, ws, rfl⟩ := List.exists_cons_of_length_eq_add_one hlength.symm
    rw [List.zip_cons_cons, Bindings.has, Bindings.get?]
    split
    · rfl
    next hne =>
      exact ih (by simpa using hlength) ((List.mem_cons.1 hx).resolve_left fun h => hne h.symm)

/-- The argument has no label, and is evaluated to the value. -/
structure Argument.Gives (s : State) (a : Argument) (v : Expr) : Prop where
  label : a.label = none
  reduce : Eval.Gives s a.reduce v

namespace Activation

variable {f : Function} {args : List Argument} {vs : List Expr} {loc : Option Loc}
  {reduce : Scope → Expr → Eval Expr}

/-- Arguments are bound to the next parameters, in order. -/
theorem gives_bindArguments (h : List.Forall₂ (Argument.Gives s) args vs) {xs : List String}
    (hlength : xs.length = vs.length) (scope : Scope) {surplus : List Argument}
    (hnodup : (scope.frame.map Prod.fst ++ xs).Nodup) :
    Eval.Gives s
      (args.foldlM (bindArgument f) { scope := scope, next := xs, surplus := surplus })
      { scope := { scope with frame := scope.frame ++ xs.zip vs }, next := [],
        surplus := surplus } := by
  induction h generalizing xs scope with
  | nil =>
    rw [List.length_eq_zero_iff.1 hlength, List.zip_nil_left, List.append_nil]
    exact gives_pure s _
  | @cons a v args vs hav _ ih =>
    obtain ⟨x, ys, rfl⟩ := List.exists_cons_of_length_eq_add_one hlength
    have hx : x ∉ scope.frame.map Prod.fst := fun hmem =>
      (List.nodup_append.1 hnodup).2.2 x hmem x (by simp) rfl
    have hdefine : scope.define x v = { scope with frame := scope.frame ++ [(x, v)] } := by
      rw [Scope.define, Bindings.set_of_not_mem hx]
    have hstep : Eval.Gives s
        (bindArgument f { scope := scope, next := x :: ys, surplus := surplus } a)
        { scope := scope.define x v, next := ys, surplus := surplus } := by
      rw [bindArgument, hav.label]
      exact hav.reduce.bind (gives_pure s _)
    rw [List.foldlM_cons]
    refine hstep.bind ?_
    rw [hdefine, List.zip_cons_cons]
    have hys : ys.length = vs.length := by simpa using hlength
    simpa using ih hys { scope with frame := scope.frame ++ [(x, v)] } (by simpa using hnodup)

/-- Arguments beyond the parameters are collected. -/
theorem gives_bindSurplus (hf : f.isVariadic = true)
    (h : List.Forall₂ (Argument.Gives s) args vs) (scope : Scope) (surplus : List Argument) :
    Eval.Gives s (args.foldlM (bindArgument f) { scope := scope, next := [], surplus := surplus })
      { scope := scope, next := [], surplus := surplus ++ args } := by
  induction h generalizing surplus with
  | nil =>
    rw [List.append_nil]
    exact gives_pure s _
  | @cons a v args vs hav _ ih =>
    have hstep : bindArgument f { scope := scope, next := [], surplus := surplus } a =
        pure { scope := scope, next := [], surplus := surplus ++ [a] } := by
      rw [bindArgument, hav.label, bindNext, if_neg Bool.false_ne_true, if_pos hf]
    rw [List.foldlM_cons, hstep, pure_bind, List.append_cons surplus a args]
    exact ih _

theorem bindDefaults_of_bound {scope : Scope} {xs : List String}
    (h : ∀ x ∈ xs, scope.frame.has x = true) :
    xs.foldlM (bindDefault f reduce loc) scope = pure scope := by
  induction xs with
  | nil => rfl
  | cons x xs ih =>
    rw [List.foldlM_cons, bindDefault, if_pos (h x (by simp)), pure_bind]
    exact ih fun y hy => h y (by simp [hy])

/-- The function called with a value for each of its parameters. -/
def applied (f : Function) (caller : Scope) (loc : Option Loc) (vs : List Expr) : Activation :=
  { function := f, scope := { caller.callee with frame := f.params.zip vs }, surplus := [],
    loc := loc }

theorem gives_bind (hf : f.isVariadic = false) (hnodup : f.params.Nodup)
    (hlength : f.params.length = vs.length) (h : List.Forall₂ (Argument.Gives s) args vs)
    (caller : Scope) : Eval.Gives s (bind f reduce caller loc args) (applied f caller loc vs) := by
  have hfixed : f.fixed = f.params := by rw [Function.fixed, hf, if_neg Bool.false_ne_true]
  unfold bind
  rw [hfixed]
  refine (gives_bindArguments h hlength caller.callee hnodup).bind ?_
  dsimp only
  rw [bindDefaults_of_bound, pure_bind, bindSurplus, hf, if_neg Bool.false_ne_true]
  · exact gives_pure s _
  · exact fun x hx => Bindings.has_zip hlength hx

/-- The largest of several values is taken of the arguments, which are yet to be evaluated. -/
def gathered (caller : Scope) (loc : Option Loc) (args : List Argument) : Activation :=
  { function := .maxOf, scope := bindSurplus .maxOf loc args caller.callee, surplus := args,
    loc := loc }

theorem gives_bind_maxOf (h : List.Forall₂ (Argument.Gives s) args vs) (caller : Scope) :
    Eval.Gives s (bind .maxOf reduce caller loc args) (gathered caller loc args) :=
  (gives_bindSurplus rfl h caller.callee []).bind (gives_pure s _)

/-- The largest of several values is a call with these. -/
theorem gives_maxOf {a : Activation} (hf : a.function = .maxOf) (hne : vs ≠ [])
    (h : List.Forall₂ (Argument.Gives s) a.surplus vs) :
    Eval.Gives s a.maxOf (.call "max_of" vs a.loc) := by
  have hempty : a.surplus.isEmpty = false := by
    cases hsurplus : a.surplus with
    | nil =>
      rw [hsurplus] at h
      exact absurd (List.forall₂_nil_left_iff.1 h) hne
    | cons => rfl
  have hagain : a.again vs = .call "max_of" vs a.loc := by rw [again, hf]; rfl
  rw [maxOf, hempty, if_neg Bool.false_ne_true, ← hagain]
  exact (gives_mapM (h.imp fun _ _ hbv => hbv.reduce)).bind (gives_pure s _)

end Activation

/-! ## Calls -/

/-- The node can be an argument without a label. -/
def Expr.IsPositional (e : Expr) : Prop := ∀ x e' l, e ≠ .assign x e' l

theorem Expr.IsReduced.isPositional {v : Expr} (h : v.IsReduced) : v.IsPositional := by
  rintro x e' l rfl
  cases h

namespace Engine

variable {m : Engine} {inner : Inner} {f : Function} {name : String} {es vs : List Expr}
  {loc : Option Loc} {v : Expr}

theorem arguments_cons {e : Expr} (he : e.IsPositional) (scope : Scope) (rest : List Expr) :
    m.arguments scope (e :: rest) =
      { label := none, source := e, loc := e.loc, reduce := m.reduce scope e } ::
        m.arguments scope rest := by
  cases e with
  | assign x e' l => exact absurd rfl (he x e' l)
  | _ => rfl

theorem gives_arguments {scope : Scope} (hes : ∀ e ∈ es, e.IsPositional)
    (h : List.Forall₂ (fun e v => Gives s (m.reduce scope e) v) es vs) :
    List.Forall₂ (Argument.Gives s) (m.arguments scope es) vs := by
  induction h with
  | nil => exact .nil
  | cons hev _ ih =>
    rw [arguments_cons (hes _ (by simp))]
    exact .cons ⟨rfl, hev⟩ (ih fun e he => hes e (by simp [he]))

theorem gives_resolve (h : s.functions.get? name = some f) (loc : Option Loc) :
    Gives s (resolve name loc) f := by
  refine (gives_function? s name).bind ?_
  rw [h]
  exact gives_pure s f

/-- **A function is entered** with the values of the arguments. -/
theorem gives_enter (hm : m.inner = some inner) (hname : s.functions.get? name = some f)
    (hf : f.isVariadic = false) (hnodup : f.params.Nodup) (hlength : f.params.length = vs.length)
    {scope : Scope} (hes : ∀ e ∈ es, e.IsPositional)
    (h : List.Forall₂ (fun e v => Gives s (m.reduce scope e) v) es vs) :
    Gives s (m.enter scope name (m.arguments scope es) loc)
      (inner, Activation.applied f scope loc vs) := by
  refine (gives_resolve hname loc).bind ?_
  rw [hm]
  exact (Activation.gives_bind hf hnodup hlength (gives_arguments hes h) scope).bind
    (gives_pure s _)

/-- A call of a function of the language with values for its parameters. -/
theorem gives_call (hs : s.functions.Intact) (hm : m.inner = some inner)
    (hbuiltin : f.isBuiltin = true) (hf : f.isVariadic = false)
    (hlength : f.params.length = es.length) {scope : Scope}
    (hes : ∀ e ∈ es, e.IsReduced ∧ Gives s (m.reduce scope e) e)
    (h : Gives s ((Activation.applied f scope loc es).reduce m inner) v) :
    Gives s (m.reduce scope (.call f.name es loc)) v := by
  have henter : Gives s (m.enter scope f.name (m.arguments scope es) loc)
      (inner, Activation.applied f scope loc es) :=
    gives_enter hm (hs.language hbuiltin) hf (Function.nodup_params hbuiltin) hlength
      (fun e he => (hes e he).1.isPositional) (List.forall₂_same.2 fun e he => (hes e he).2)
  rw [Engine.reduce, call]
  exact henter.bind ((gives_record s _).bind h)

/-- A call of the function that takes the largest of values. -/
theorem gives_call_maxOf (hs : s.functions.Intact) (hm : m.inner = some inner) (hne : es ≠ [])
    {scope : Scope} (hes : ∀ e ∈ es, e.IsReduced ∧ Gives s (m.reduce scope e) e) :
    Gives s (m.reduce scope (.call "max_of" es loc)) (.call "max_of" es loc) := by
  have hargs := gives_arguments (fun e he => (hes e he).1.isPositional)
    (List.forall₂_same.2 fun e he => (hes e he).2)
  have henter : Gives s (m.enter scope "max_of" (m.arguments scope es) loc)
      (inner, Activation.gathered scope loc (m.arguments scope es)) := by
    refine (gives_resolve (hs.language (f := .maxOf) rfl) loc).bind ?_
    rw [hm]
    exact (Activation.gives_bind_maxOf hargs scope).bind (gives_pure s _)
  rw [Engine.reduce, call]
  exact henter.bind ((gives_record s _).bind (Activation.gives_maxOf rfl hne hargs))

theorem gives_reduceAll {scope : Scope} (h : ∀ e ∈ es, Gives s (m.reduce scope e) e) :
    Gives s (m.reduceAll scope es) es := by
  induction es with
  | nil => exact gives_pure s []
  | cons e rest ih =>
    rw [Engine.reduceAll]
    refine (h e (by simp)).bind ?_
    exact (ih fun e he => h e (by simp [he])).bind (gives_pure s _)

end Engine

/-! ## Values -/

/-- Arithmetic that is left among values stays as it is. -/
theorem Expr.combine_of_not_numbers {op : Operator} {a b : Expr} {l : Option Loc}
    (hnumbers : ¬ (a.integer?.isSome = true ∧ b.integer?.isSome = true))
    (htexts : a.isString = false ∧ b.isString = false) :
    Expr.combine op a b l = .ok (.math op a b l) := by
  have hothers : combineOthers op a b l = .ok (.math op a b l) := by
    unfold combineOthers
    rw [htexts.1, htexts.2]
    rfl
  unfold combine
  split
  next m n hm hn => exact absurd ⟨by rw [hm]; rfl, by rw [hn]; rfl⟩ hnumbers
  next => exact hothers

namespace Expr.IsReduced

variable {m : Engine} {inner : Inner} {scope : Scope}

theorem gives_accessor (hs : s.functions.Intact) (hm : m.inner = some inner) (size : Wire.Size)
    (w : Wire.Word) (l l' : Option Loc) :
    Eval.Gives s (m.reduce scope (.call size.name [.integer w.val l] l'))
      (.call size.name [.integer w.val l] l') := by
  refine Engine.gives_call (f := .accessor size) hs hm rfl rfl rfl ?_ ?_
  · intro e he
    rw [List.mem_singleton.1 he]
    exact ⟨.integer _ _, gives_pure s _⟩
  · refine (gives_pure s ((w.val : Int), l)).bind ?_
    dsimp only
    rw [Wire.Word.ofInt?_val]
    exact gives_pure s _

/-- **A value evaluates to itself.** -/
theorem gives (hs : s.functions.Intact) (hm : m.inner = some inner) {v : Expr}
    (hv : v.IsReduced) : Eval.Gives s (m.reduce scope v) v := by
  induction hv with
  | string t l => exact gives_pure s _
  | integer n l => exact gives_pure s _
  | accessor size w l l' => exact gives_accessor hs hm size w l l'
  | prev size w l l' l'' =>
    refine Engine.gives_call (f := .prev) hs hm rfl rfl rfl ?_ ?_
    · intro e he
      rw [List.mem_singleton.1 he]
      exact ⟨.accessor size w l l', gives_accessor hs hm size w l l'⟩
    · have hname : s.functions.get? size.name = some (.accessor size) :=
        hs.language (f := .accessor size) rfl
      refine (gives_pure s _).bind ((gives_function? s size.name).bind ?_)
      rw [hname]
      exact gives_pure s _
  | @around f hf e he l ih =>
    have hvalues : ∀ e' ∈ [e], e'.IsReduced ∧ Eval.Gives s (m.reduce scope e') e' := by
      intro e' he'
      rw [List.mem_singleton.1 he']
      exact ⟨he, ih⟩
    cases f with
    | once | never | pausing => exact Engine.gives_call hs hm rfl rfl rfl hvalues (gives_pure s _)
    | _ => cases hf
  | @repeated n hn e he l l' ih =>
    refine Engine.gives_call (f := .repeated) hs hm rfl rfl rfl ?_ ?_
    · intro e' he'
      obtain rfl | he' := List.mem_cons.1 he'
      · exact ⟨.integer _ _, gives_pure s _⟩
      · rw [List.mem_singleton.1 he']
        exact ⟨he, ih⟩
    · change Eval.Gives s (if n < 1 then _ else _) _
      rw [if_neg (by omega)]
      exact gives_pure s _
  | constant holds l =>
    exact Engine.gives_call (f := .constant holds) hs hm rfl rfl rfl (by simp) (gives_pure s _)
  | @maxOf es hne hes l ih =>
    exact Engine.gives_call_maxOf hs hm hne fun e he => ⟨hes e he, ih e he⟩
  | compare r ha hb l iha ihb =>
    rw [Engine.reduce]
    exact iha.bind (ihb.bind (gives_pure s _))
  | math op ha hb hnumbers htexts l iha ihb =>
    rw [Engine.reduce]
    refine iha.bind (ihb.bind ?_)
    rw [combine_of_not_numbers hnumbers htexts]
    exact gives_pure s _
  | not he l ih =>
    rw [Engine.reduce]
    exact ih.bind (gives_pure s _)
  | logic op hes l ih =>
    rw [Engine.reduce]
    exact (Engine.gives_reduceAll ih).bind (gives_pure s _)
  | array hes l ih =>
    rw [Engine.reduce]
    exact (Engine.gives_reduceAll ih).bind (gives_pure s _)

end Expr.IsReduced

end AchievementLang

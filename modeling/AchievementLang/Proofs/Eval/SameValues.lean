import AchievementLang.Eval.Arithmetic
import AchievementLang.Eval.Scope
import AchievementLang.Proofs.Compile.Places
import Mathlib.Data.List.Forall2

/-!
# The same, wherever it was written

Two values that evaluation comes to may say the same and still differ in the places of their nodes.
`Same bare places a b` compares them in either sense: if places count, `a` is `b`; if they do not,
they are equal once `bare` has taken the places away. What commutes with taking places away respects
both senses at once (`Same.map`, `Same.map₂`), so looking up a variable, calling a function, folding
numbers and compiling are each treated by one equation.
-/

namespace AchievementLang

variable {α β γ : Type} {places : Bool}

/-- The things are the same, in all or but for the places that `bare` takes away. -/
structure Same (bare : α → α) (places : Bool) (a b : α) : Prop where
  bare_eq : bare a = bare b
  eq : places = true → a = b

namespace Same

variable {bare : α → α} {bare' : β → β} {bare'' : γ → γ} {a a' : α} {b b' : β}

theorem refl (bare : α → α) (places : Bool) (a : α) : Same bare places a a := ⟨rfl, fun _ => rfl⟩

theorem symm (h : Same bare places a a') : Same bare places a' a :=
  ⟨h.bare_eq.symm, fun hp => (h.eq hp).symm⟩

/-- What commutes with taking places away comes to the same. -/
theorem map {f g : α → β} (hf : ∀ a, bare' (f a) = g (bare a)) (h : Same bare places a a') :
    Same bare' places (f a) (f a') :=
  ⟨by rw [hf, hf, h.bare_eq], fun hp => by rw [h.eq hp]⟩

theorem map₂ {f g : α → β → γ} (hf : ∀ a b, bare'' (f a b) = g (bare a) (bare' b))
    (ha : Same bare places a a') (hb : Same bare' places b b') :
    Same bare'' places (f a b) (f a' b') :=
  ⟨by rw [hf, hf, ha.bare_eq, hb.bare_eq], fun hp => by rw [ha.eq hp, hb.eq hp]⟩

theorem some (h : Same bare places a a') :
    Same (Option.map bare) places (Option.some a) (Option.some a') :=
  h.map (g := fun a => Option.some a) fun _ => rfl

theorem option {o o' : Option α} (h : Same (Option.map bare) places o o') :
    (o = none ∧ o' = none) ∨
      ∃ a a', o = Option.some a ∧ o' = Option.some a' ∧ Same bare places a a' := by
  have hbare := h.bare_eq
  cases o with
  | none =>
    cases o' with
    | none => exact .inl ⟨rfl, rfl⟩
    | some a' => cases hbare
  | some a =>
    cases o' with
    | none => cases hbare
    | some a' =>
      exact .inr ⟨a, a', rfl, rfl, Option.some.inj hbare, fun hp => Option.some.inj (h.eq hp)⟩

end Same

/-- What has no places is the same only if it is equal. -/
theorem same_id_iff {a b : α} : Same id places a b ↔ a = b :=
  ⟨fun h => h.bare_eq, fun h => h ▸ .refl id places a⟩

/-! ## Places -/

/-- No place. -/
def noPlace (_ : Option Loc) : Option Loc := none

theorem same_place {l l' : Option Loc} (h : places = true → l = l') : Same noPlace places l l' :=
  ⟨rfl, h⟩

theorem Same.or {l l' k k' : Option Loc} (hl : Same noPlace places l l')
    (hk : Same noPlace places k k') : Same noPlace places (l.or k) (l'.or k') :=
  ⟨rfl, fun hp => by rw [hl.eq hp, hk.eq hp]⟩

/-- The value and its place, without the place. -/
def barePlaced (p : α × Option Loc) : α × Option Loc := (p.1, none)

theorem same_placed (a : α) {l l' : Option Loc} (h : Same noPlace places l l') :
    Same barePlaced places (a, l) (a, l') :=
  ⟨rfl, fun hp => by rw [h.eq hp]⟩

theorem same_placed_iff {a b : α} {l l' : Option Loc} :
    Same barePlaced places (a, l) (b, l') ↔ a = b ∧ Same noPlace places l l' := by
  constructor
  · exact fun h => ⟨congrArg Prod.fst h.bare_eq, rfl, fun hp => congrArg Prod.snd (h.eq hp)⟩
  · rintro ⟨rfl, h⟩
    exact same_placed a h

/-! ## Failures -/

theorem same_at (cause : Cause) {l l' : Option Loc} (h : Same noPlace places l l') :
    Same Failure.bare places (.at? cause l) (.at? cause l') :=
  ⟨rfl, fun hp => by rw [h.eq hp]⟩

/-! ## Expressions -/

namespace Expr

variable {e e' : Expr} {es es' : List Expr}

theorem same_loc (h : Same bare places e e') : Same noPlace places e.loc e'.loc :=
  same_place fun hp => by rw [h.eq hp]

theorem same_string {s : String} {l : Option Loc} (h : Same bare places (.string s l) e') :
    ∃ l', e' = .string s l' ∧ Same noPlace places l l' := by
  have hbare := h.bare_eq
  cases e' with
  | string s' l' =>
    cases hbare
    exact ⟨l', rfl, same_loc h⟩
  | _ => cases hbare

theorem same_integer {n : Int} {l : Option Loc} (h : Same bare places (.integer n l) e') :
    ∃ l', e' = .integer n l' ∧ Same noPlace places l l' := by
  have hbare := h.bare_eq
  cases e' with
  | integer n' l' =>
    cases hbare
    exact ⟨l', rfl, same_loc h⟩
  | _ => cases hbare

theorem same_call {name : String} {l : Option Loc} (h : Same bare places (.call name es l) e') :
    ∃ es' l', e' = .call name es' l' ∧ Same bareAll places es es' := by
  have hbare := h.bare_eq
  cases e' with
  | call name' es' l' =>
    obtain ⟨rfl, hes, -⟩ := Expr.call.inj hbare
    exact ⟨es', l', rfl, hes, fun hp => (Expr.call.inj (h.eq hp)).2.1⟩
  | _ => cases hbare

theorem same_nil : Same bareAll places [] [] := .refl _ _ _

theorem same_cons (h : Same bare places e e') (hs : Same bareAll places es es') :
    Same bareAll places (e :: es) (e' :: es') :=
  h.map₂ (fun _ _ => by rw [bareAll]) hs

theorem same_of_forall₂ (h : List.Forall₂ (Same bare places) es es') :
    Same bareAll places es es' := by
  induction h with
  | nil => exact same_nil
  | cons he _ ih => exact same_cons he ih

theorem forall₂_of_same (h : Same bareAll places es es') :
    List.Forall₂ (Same bare places) es es' := by
  have hbare := h.bare_eq
  induction es generalizing es' with
  | nil =>
    cases es' with
    | nil => exact .nil
    | cons e' rest' => cases hbare
  | cons e rest ih =>
    cases es' with
    | nil => cases hbare
    | cons e' rest' =>
      obtain ⟨he, hrest⟩ := List.cons.inj hbare
      refine .cons ⟨he, fun hp => (List.cons.inj (h.eq hp)).1⟩ (ih ⟨hrest, fun hp => ?_⟩ hrest)
      exact (List.cons.inj (h.eq hp)).2

theorem same_number (n : Int) {l l' : Option Loc} (h : Same noPlace places l l') :
    Same bare places (integer n l) (integer n l') :=
  ⟨rfl, fun hp => by rw [h.eq hp]⟩

theorem same_array (h : Same bareAll places es es') (l : Option Loc) :
    Same bare places (array es l) (array es' l) :=
  h.map (f := fun es => array es l) (g := fun es => array es none) fun _ => by rw [bare]

theorem same_logic (op : Connective) (h : Same bareAll places es es') (l : Option Loc) :
    Same bare places (logic op es l) (logic op es' l) :=
  h.map (f := fun es => logic op es l) (g := fun es => logic op es none) fun _ => by rw [bare]

theorem same_again (name : String) (h : Same bareAll places es es') (l : Option Loc) :
    Same bare places (call name es l) (call name es' l) :=
  h.map (f := fun es => call name es l) (g := fun es => call name es none) fun _ => by rw [bare]

theorem same_not (h : Same bare places e e') (l : Option Loc) :
    Same bare places (not e l) (not e' l) :=
  h.map (f := fun e => not e l) (g := fun e => not e none) fun _ => by rw [bare]

theorem same_compare (r : Relation) {d d' : Expr} (hd : Same bare places d d')
    (he : Same bare places e e') (l : Option Loc) :
    Same bare places (compare r d e l) (compare r d' e' l) :=
  hd.map₂ (f := fun d e => compare r d e l) (g := fun d e => compare r d e none)
    (fun _ _ => by rw [bare]) he

/-! ## Arithmetic -/

theorem isString_bare (e : Expr) : e.bare.isString = e.isString := by cases e <;> rfl

theorem appendable?_bare (e : Expr) : e.bare.appendable? = e.appendable? := by cases e <;> rfl

theorem combineOthers_bare (op : Operator) (a b : Expr) (loc : Option Loc) :
    bareOutcome bare ((combineOthers op a b loc).mapError .fault) =
      (combineOthers op a.bare b.bare none).mapError .fault := by
  simp only [combineOthers, isString_bare, appendable?_bare]
  split
  · cases op with
    | add => cases a.appendable? <;> cases b.appendable? <;> rfl
    | _ => rfl
  · rfl

/-- **Operations fold to the same.** -/
theorem combine_bare (op : Operator) (a b : Expr) (loc : Option Loc) :
    bareOutcome bare ((combine op a b loc).mapError .fault) =
      (combine op a.bare b.bare none).mapError .fault := by
  have hothers := combineOthers_bare op a b loc
  simp only [combine, integer?_bare]
  cases a.integer? with
  | none => exact hothers
  | some m =>
    cases b.integer? with
    | none => exact hothers
    | some n =>
      dsimp only
      cases op.apply? m n <;> rfl

end Expr

/-! ## Scopes -/

/-- The values that are bound, without places. -/
def Bindings.bare (b : Bindings Expr) : Bindings Expr := b.map fun p => (p.1, p.2.bare)

theorem Bindings.get?_bare (b : Bindings Expr) (x : String) :
    b.bare.get? x = (b.get? x).map Expr.bare := by
  induction b with
  | nil => rfl
  | cons p rest ih =>
    obtain ⟨y, v⟩ := p
    simp only [bare, List.map_cons, get?] at ih ⊢
    split
    · rfl
    · exact ih

theorem Bindings.set_bare (b : Bindings Expr) (x : String) (v : Expr) :
    (b.set x v).bare = b.bare.set x v.bare := by
  induction b with
  | nil => rfl
  | cons p rest ih =>
    obtain ⟨y, w⟩ := p
    simp only [bare, List.map_cons, set] at ih ⊢
    split
    · rfl
    · rw [List.map_cons, ih]

namespace Scope

theorem lookup_bare (x : String) (frames : List (Bindings Expr)) :
    lookup x (frames.map Bindings.bare) = (lookup x frames).map Expr.bare := by
  induction frames with
  | nil => rfl
  | cons frame rest ih =>
    rw [List.map_cons, lookup, lookup, ih, Bindings.get?_bare]
    cases frame.get? x <;> rfl

/-- The scopes hold the same. If depths count, as many calls have led to the one as to the other. -/
structure Like (places depths : Bool) (s t : Scope) : Prop where
  frame : Same Bindings.bare places s.frame t.frame
  enclosing : Same (List.map Bindings.bare) places s.enclosing t.enclosing
  depth : depths = true → s.depth = t.depth

variable {depths : Bool} {s t : Scope}

theorem Like.refl (places depths : Bool) (s : Scope) : s.Like places depths s :=
  ⟨.refl _ _ _, .refl _ _ _, fun _ => rfl⟩

theorem Like.param (h : s.Like places depths t) (x : String) :
    Same (Option.map Expr.bare) places (s.frame.get? x) (t.frame.get? x) :=
  h.frame.map (f := (·.get? x)) (g := (·.get? x)) fun b => (b.get?_bare x).symm

theorem Like.get? (h : s.Like places depths t) (x : String) :
    Same (Option.map Expr.bare) places (s.get? x) (t.get? x) :=
  h.frame.map₂ (f := fun frame around => lookup x (frame :: around))
    (g := fun frame around => lookup x (frame :: around))
    (fun frame around => (lookup_bare x (frame :: around)).symm) h.enclosing

theorem Like.globals (h : s.Like places depths t) :
    Same Bindings.bare places s.globals t.globals :=
  h.frame.map₂ (f := fun frame around => around.getLast?.getD frame)
    (g := fun frame around => around.getLast?.getD frame)
    (fun frame around => by
      rw [List.getLast?_map]
      cases around.getLast? <;> rfl) h.enclosing

theorem Like.define (h : s.Like places depths t) (x : String) {v w : Expr}
    (hvw : Same Expr.bare places v w) : (s.define x v).Like places depths (t.define x w) where
  frame := h.frame.map₂ (f := fun b v => b.set x v) (g := fun b v => b.set x v)
    (fun b v => b.set_bare x v) hvw
  enclosing := h.enclosing
  depth := h.depth

theorem Like.root (h : s.Like places depths t) : s.root.Like places depths t.root :=
  ⟨h.globals, .refl _ _ _, fun _ => rfl⟩

/-- A function sees nothing of its caller but the globals. -/
theorem like_callee (hglobals : Same Bindings.bare places s.globals t.globals)
    (hdepth : depths = true → s.depth = t.depth) : s.callee.Like places depths t.callee where
  frame := .refl _ _ _
  enclosing := hglobals.map (f := ([·])) (g := ([·])) fun _ => rfl
  depth hd := congrArg (· + 1) (hdepth hd)

theorem Like.callee (h : s.Like places depths t) : s.callee.Like places depths t.callee :=
  like_callee h.globals h.depth

theorem Like.has_eq (h : s.Like places depths t) (x : String) :
    s.frame.has x = t.frame.has x := by
  have hx := congrArg Option.isSome (h.param x).bare_eq
  simpa only [Bindings.has, Option.isSome_map] using hx

end Scope

end AchievementLang

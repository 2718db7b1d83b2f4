import AchievementLang.Eval.Arithmetic
import AchievementLang.Eval.Scope
import AchievementLang.Function
import Mathlib.Data.List.Nodup

/-!
# Values of evaluation

The expressions that evaluation comes to (`Expr.IsReduced`): no variables and no statements occur in
them, arithmetic is left only where an operand is not a number, and a call is one of those that
functions of the language leave, with arguments that these have checked. What a call is goes by its
name alone; a script may have made the name denote something else since.

Variables hold such values (`Scope.IsReduced`), whatever is done with scopes.
-/

namespace AchievementLang

/-! ## The functions of the language -/

namespace Function

/-- The function is one of the language. -/
def isBuiltin : Function → Bool
  | declared _ => false
  | _ => true

/-- The function puts a mark on the condition that it gets, and is worth a call of itself. -/
def isAround : Function → Bool
  | once | never | pausing => true
  | _ => false

theorem isBuiltin_of_isAround {f : Function} (h : f.isAround = true) : f.isBuiltin = true := by
  cases f <;> simp_all [isAround, isBuiltin]

theorem mem_all {f : Function} (h : f.isBuiltin = true) : f ∈ all := by
  cases f with
  | accessor s =>
    have hs : s ∈ Wire.Size.all := by
      cases s with
      | bit i => revert i; decide
      | _ => decide
    exact List.mem_append_left _ (List.mem_map_of_mem hs)
  | constant holds => cases holds <;> simp [all]
  | declared d => cases h
  | _ => simp [all]

theorem nodup_names : (all.map name).Nodup := by decide

/-- No two functions of the language have the same name. -/
theorem name_injective {f f' : Function} (hf : f.isBuiltin = true) (hf' : f'.isBuiltin = true)
    (h : f.name = f'.name) : f = f' :=
  List.inj_on_of_nodup_map nodup_names (mem_all hf) (mem_all hf') h

end Function

/-! ## Values -/

namespace Expr

/-- The node is a value of evaluation. -/
inductive IsReduced : Expr → Prop
  | string (s : String) (l : Option Loc) : IsReduced (.string s l)
  | integer (n : Int) (l : Option Loc) : IsReduced (.integer n l)
  | accessor (s : Wire.Size) (a : Wire.Word) (l l' : Option Loc) :
      IsReduced (.call s.name [.integer a.val l] l')
  | prev (s : Wire.Size) (a : Wire.Word) (l l' l'' : Option Loc) :
      IsReduced (.call "prev" [.call s.name [.integer a.val l] l'] l'')
  | around (f : Function) (hf : f.isAround = true) {e : Expr} (he : IsReduced e)
      (l : Option Loc) : IsReduced (.call f.name [e] l)
  | repeated {n : Int} (hn : 1 ≤ n) {e : Expr} (he : IsReduced e) (l l' : Option Loc) :
      IsReduced (.call "repeated" [.integer n l, e] l')
  | constant (holds : Bool) (l : Option Loc) :
      IsReduced (.call (Function.constantName holds) [] l)
  | maxOf {es : List Expr} (hne : es ≠ []) (hes : ∀ e ∈ es, IsReduced e) (l : Option Loc) :
      IsReduced (.call "max_of" es l)
  | compare (r : Relation) {a b : Expr} (ha : IsReduced a) (hb : IsReduced b) (l : Option Loc) :
      IsReduced (.compare r a b l)
  /-- One of the operands is no number, and neither is a text. -/
  | math (op : Operator) {a b : Expr} (ha : IsReduced a) (hb : IsReduced b)
      (hnumbers : ¬ (a.integer?.isSome = true ∧ b.integer?.isSome = true))
      (htexts : a.isString = false ∧ b.isString = false) (l : Option Loc) :
      IsReduced (.math op a b l)
  | not {e : Expr} (he : IsReduced e) (l : Option Loc) : IsReduced (.not e l)
  | logic (op : Connective) {es : List Expr} (hes : ∀ e ∈ es, IsReduced e) (l : Option Loc) :
      IsReduced (.logic op es l)
  | array {es : List Expr} (hes : ∀ e ∈ es, IsReduced e) (l : Option Loc) :
      IsReduced (.array es l)

end Expr

/-- What the arguments of a value are that is a call of the function. -/
def Function.Leaves (f : Function) (args : List Expr) : Prop :=
  match f with
  | accessor _ => ∃ (w : Wire.Word) (l : Option Loc), args = [.integer w.val l]
  | prev => ∃ (s : Wire.Size) (w : Wire.Word) (l l' : Option Loc),
      args = [.call s.name [.integer w.val l] l']
  | once | never | pausing => ∃ e : Expr, e.IsReduced ∧ args = [e]
  | repeated => ∃ (n : Int) (l : Option Loc) (e : Expr), 1 ≤ n ∧ e.IsReduced ∧
      args = [.integer n l, e]
  | constant _ => args = []
  | maxOf => args ≠ [] ∧ ∀ e ∈ args, e.IsReduced
  | _ => False

namespace Expr.IsReduced

variable {name : String} {args : List Expr} {a b v : Expr} {l : Option Loc}

/-- A value that is a call is named for the function that left it. -/
theorem exists_leaves (h : IsReduced (.call name args l)) :
    ∃ f : Function, f.isBuiltin = true ∧ name = f.name ∧ f.Leaves args := by
  cases h with
  | accessor s w l' _ => exact ⟨.accessor s, rfl, rfl, w, l', rfl⟩
  | prev s w l' l'' _ => exact ⟨.prev, rfl, rfl, s, w, l', l'', rfl⟩
  | around f hf he =>
    refine ⟨f, Function.isBuiltin_of_isAround hf, rfl, ?_⟩
    cases f with
    | once | never | pausing => exact ⟨_, he, rfl⟩
    | _ => cases hf
  | repeated hn he l' _ => exact ⟨.repeated, rfl, rfl, _, l', _, hn, he, rfl⟩
  | constant holds => exact ⟨.constant holds, rfl, rfl, rfl⟩
  | maxOf hne hes => exact ⟨.maxOf, rfl, rfl, hne, hes⟩

/-- The arguments of a value that is a call go by the function whose name it has. -/
theorem leaves {f : Function} (hf : f.isBuiltin = true) (h : IsReduced (.call f.name args l)) :
    f.Leaves args := by
  obtain ⟨f', hf', hname, hargs⟩ := h.exists_leaves
  rwa [Function.name_injective hf hf' hname]

/-- Arithmetic on values comes to a value. -/
theorem combine {op : Operator} (ha : a.IsReduced) (hb : b.IsReduced)
    (h : Expr.combine op a b l = .ok v) : v.IsReduced := by
  unfold Expr.combine at h
  split at h
  · split at h
    · cases h
      exact .integer _ _
    · cases h
  next hnumbers =>
    unfold combineOthers at h
    split at h
    · split at h
      · cases h
        exact .string _ _
      · cases h
      · cases h
    next htexts =>
      cases h
      refine .math op ha hb (fun ⟨hm, hn⟩ => ?_) ?_ l
      · obtain ⟨m, hm⟩ := Option.isSome_iff_exists.1 hm
        obtain ⟨n, hn⟩ := Option.isSome_iff_exists.1 hn
        exact hnumbers m n hm hn
      · simpa using htexts

end Expr.IsReduced

/-! ## Variables -/

namespace Scope

variable {s : Scope} {P : Expr → Prop}

/-- The variables of a frame hold expressions with the property. -/
def FrameHolds (P : Expr → Prop) (frame : Bindings Expr) : Prop :=
  ∀ x v, frame.get? x = some v → P v

/-- All variables that can be seen hold expressions with the property. -/
def Holds (P : Expr → Prop) (s : Scope) : Prop :=
  ∀ frame ∈ s.frame :: s.enclosing, FrameHolds P frame

theorem holds_empty : Holds P {} := by
  intro frame hframe x v hv
  rw [List.mem_singleton.1 hframe] at hv
  cases hv

theorem Holds.get? (h : s.Holds P) {x : String} {v : Expr} (hv : s.get? x = some v) : P v := by
  have all : ∀ frames : List (Bindings Expr), (∀ frame ∈ frames, FrameHolds P frame) →
      lookup x frames = some v → P v := by
    intro frames hframes hlookup
    induction frames with
    | nil => cases hlookup
    | cons frame rest ih =>
      rw [lookup] at hlookup
      cases hx : frame.get? x with
      | some w =>
        rw [hx] at hlookup
        cases hlookup
        exact hframes frame (by simp) x v hx
      | none =>
        rw [hx] at hlookup
        exact ih (fun f hf => hframes f (by simp [hf])) hlookup
  exact all _ h hv

theorem Holds.define (h : s.Holds P) (x : String) {v : Expr} (hv : P v) :
    (s.define x v).Holds P := by
  intro frame hframe
  rcases List.mem_cons.1 hframe with rfl | hframe
  · intro y w hw
    rw [Scope.define, Bindings.get?_set] at hw
    split at hw
    · cases hw
      exact hv
    · exact h s.frame (by simp) y w hw
  · exact h frame (List.mem_cons_of_mem _ hframe)

theorem Holds.globals (h : s.Holds P) : FrameHolds P s.globals := by
  unfold Scope.globals
  cases hlast : s.enclosing.getLast? with
  | none => exact h s.frame (by simp)
  | some frame => exact h frame (List.mem_cons_of_mem _ (List.mem_of_getLast? hlast))

theorem Holds.root (h : s.Holds P) : s.root.Holds P := by
  intro frame hframe
  rw [List.mem_singleton.1 hframe]
  exact h.globals

theorem Holds.callee (h : s.Holds P) : s.callee.Holds P := by
  intro frame hframe
  simp only [Scope.callee, List.mem_cons, List.not_mem_nil, or_false] at hframe
  obtain rfl | rfl := hframe
  · intro x v hv
    cases hv
  · exact h.globals

/-- The variables of a frame hold values. -/
def FrameIsReduced (frame : Bindings Expr) : Prop := ∀ x v, frame.get? x = some v → v.IsReduced

/-- All variables that can be seen hold values. -/
def IsReduced (s : Scope) : Prop := ∀ frame ∈ s.frame :: s.enclosing, FrameIsReduced frame

theorem isReduced_empty : IsReduced {} := holds_empty

theorem IsReduced.get? (h : s.IsReduced) {x : String} {v : Expr} (hv : s.get? x = some v) :
    v.IsReduced := Holds.get? h hv

theorem IsReduced.define (h : s.IsReduced) (x : String) {v : Expr} (hv : v.IsReduced) :
    (s.define x v).IsReduced := Holds.define h x hv

/-- What a variable held before it was set does not matter. -/
theorem IsReduced.redefine {x : String} {v w : Expr} (h : s.IsReduced) (hw : w.IsReduced) :
    ((s.define x v).define x w).IsReduced := by
  intro frame hframe
  rcases List.mem_cons.1 hframe with rfl | hframe
  · intro y u hu
    simp only [Scope.define, Bindings.get?_set] at hu
    split at hu
    · cases hu
      exact hw
    · exact h s.frame (by simp) y u hu
  · exact h frame (List.mem_cons_of_mem _ hframe)

theorem IsReduced.root (h : s.IsReduced) : s.root.IsReduced := Holds.root h

theorem IsReduced.callee (h : s.IsReduced) : s.callee.IsReduced := Holds.callee h

end Scope

end AchievementLang

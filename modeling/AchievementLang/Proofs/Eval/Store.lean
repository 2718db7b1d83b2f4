import AchievementLang.Eval.Scope
import Mathlib.Order.Nat

/-!
# Stores of scopes

Scopes as they are when variables are set in place: a scope is known by its address, and the scopes
around it are found by theirs. `Store.view` is the scope at an address as a value. What is done in a
store is to set a variable of one scope (`Store.define`), and to make a new scope; scopes are never
removed. `Store.Grows` says that nothing else was done, and names the one scope in which variables
may have been set.
-/

namespace AchievementLang

/-- A scope in a store. -/
structure Cell where
  frame : Bindings Expr := []
  /-- The addresses of the scopes around it, innermost first. -/
  around : List Nat := []
  /-- The number of calls that led here. -/
  depth : Nat := 0

/-- The scopes that have been made, by address. None is ever removed. -/
abbrev Store := List Cell

namespace Store

section Views

variable (σ : Store)

/-- The scope at an address. -/
def cell (r : Nat) : Cell := σ[r]?.getD {}

/-- The variables of the scope at an address. -/
def frame (r : Nat) : Bindings Expr := (σ.cell r).frame

/-- The scope at an address, as a value. -/
def view (r : Nat) : Scope where
  frame := σ.frame r
  enclosing := (σ.cell r).around.map σ.frame
  depth := (σ.cell r).depth

/-- The address of the global scope. -/
def root (r : Nat) : Nat := (σ.cell r).around.getLast?.getD r

/-- The store with a variable set at an address. -/
def define (r : Nat) (x : String) (v : Expr) : Store :=
  σ.modify r fun c => { c with frame := c.frame.set x v }

/-- A new scope for a function called from an address, before its parameters are bound. -/
def callee (r : Nat) : Cell := { around := [σ.root r], depth := (σ.cell r).depth + 1 }

/-- The scopes around a scope were made before it, and no call has led to a global scope. -/
structure WellFormed : Prop where
  around : ∀ {r p rest}, (σ.cell r).around = p :: rest → p < r ∧ (σ.cell p).around = rest
  depth : ∀ {r}, (σ.cell r).around = [] → (σ.cell r).depth = 0

end Views

/-! ## Stores that grow -/

variable {σ σ' σ'' : Store} {r : Nat} {w : Option Nat}

/-- The second store goes on from the first: all scopes of the first are still there and as they
were, except that variables may have been set at the address `w`. -/
structure Grows (w : Option Nat) (σ σ' : Store) : Prop where
  wellFormed : σ'.WellFormed
  length : σ.length ≤ σ'.length
  cell : ∀ r < σ.length, w ≠ some r → σ'.cell r = σ.cell r
  around : ∀ r < σ.length, (σ'.cell r).around = (σ.cell r).around
  depth : ∀ r < σ.length, (σ'.cell r).depth = (σ.cell r).depth

theorem Grows.refl (h : σ.WellFormed) (w : Option Nat) : σ.Grows w σ :=
  ⟨h, le_rfl, fun _ _ _ => rfl, fun _ _ => rfl, fun _ _ => rfl⟩

theorem Grows.trans (h : Grows w σ σ') (h' : Grows w σ' σ'') : Grows w σ σ'' where
  wellFormed := h'.wellFormed
  length := h.length.trans h'.length
  cell r hr hw := (h'.cell r (hr.trans_le h.length) hw).trans (h.cell r hr hw)
  around r hr := (h'.around r (hr.trans_le h.length)).trans (h.around r hr)
  depth r hr := (h'.depth r (hr.trans_le h.length)).trans (h.depth r hr)

/-- To leave all scopes as they are permits to set variables somewhere. -/
theorem Grows.of_none (h : Grows none σ σ') (w : Option Nat) : Grows w σ σ' :=
  { h with cell := fun r hr _ => h.cell r hr nofun }

/-- What is set at an address that is not there yet is none of the scopes that are. -/
theorem Grows.of_fresh {n : Nat} (h : Grows (some n) σ σ') (hn : σ.length ≤ n) : Grows none σ σ' :=
  { h with cell := fun r hr _ => h.cell r hr fun hnr => by cases hnr; omega }

/-! ## Addresses -/

/-- There is nothing around an address that is not there yet. -/
theorem lt_length_of_around {p : Nat} {rest : List Nat} (h : (σ.cell r).around = p :: rest) :
    r < σ.length := by
  by_contra hr
  rw [cell, List.getElem?_eq_none (not_lt.1 hr)] at h
  cases h

theorem WellFormed.lt_of_mem_around (h : σ.WellFormed) {p : Nat} (hp : p ∈ (σ.cell r).around) :
    p < r := by
  generalize hc : (σ.cell r).around = c at hp
  induction c generalizing r with
  | nil => cases hp
  | cons q rest ih =>
    obtain ⟨hq, hrest⟩ := h.around hc
    obtain rfl | hp := List.mem_cons.1 hp
    · exact hq
    · exact (ih hrest hp).trans hq

theorem WellFormed.root_le (h : σ.WellFormed) (r : Nat) : σ.root r ≤ r := by
  unfold root
  cases hl : (σ.cell r).around.getLast? with
  | none => exact le_rfl
  | some p => exact (h.lt_of_mem_around (List.mem_of_getLast? hl)).le

/-- There is nothing around the global scope. -/
theorem WellFormed.around_root (h : σ.WellFormed) (r : Nat) : (σ.cell (σ.root r)).around = [] := by
  generalize hc : (σ.cell r).around = c
  induction c generalizing r with
  | nil => rwa [root, hc]
  | cons p rest ih =>
    have hrest := (h.around hc).2
    have hroot : σ.root r = σ.root p := by
      rw [root, root, hc, hrest, List.getLast?_cons, Option.getD_some]
    rw [hroot]
    exact ih p hrest

/-- The scope at an address is as it was, unless variables were set in it or around it. -/
theorem Grows.view_eq (h : Grows w σ σ') (hσ : σ.WellFormed) (hr : r < σ.length)
    (hw : ∀ q ∈ w, r < q) : σ'.view r = σ.view r := by
  have hkeep : ∀ p ≤ r, σ'.frame p = σ.frame p := fun p hp =>
    congrArg Cell.frame <| h.cell p (by omega) fun hwp => by
      have := hw p hwp
      omega
  have haround : (σ.cell r).around.map σ'.frame = (σ.cell r).around.map σ.frame :=
    List.map_congr_left fun p hp => hkeep p (hσ.lt_of_mem_around hp).le
  rw [view, view, h.around r hr, h.depth r hr, hkeep r le_rfl, haround]

theorem view_root (h : σ.WellFormed) (r : Nat) : σ.view (σ.root r) = (σ.view r).root := by
  rw [view, h.around_root, h.depth (h.around_root r), Scope.root, Scope.globals, view, root,
    List.getLast?_map]
  cases (σ.cell r).around.getLast? <;> rfl

/-! ## Setting variables -/

theorem cell_define_of_ne (σ : Store) {q : Nat} (hq : q ≠ r) (x : String) (v : Expr) :
    (σ.define r x v).cell q = σ.cell q := by
  rw [cell, cell, define, List.getElem?_modify]
  cases σ[q]? <;> simp [hq.symm]

theorem cell_define_self (hr : r < σ.length) (x : String) (v : Expr) :
    (σ.define r x v).cell r =
      { σ.cell r with frame := (σ.frame r).set x v } := by
  rw [cell, define, List.getElem?_modify, frame, cell, List.getElem?_eq_getElem hr]
  simp

theorem around_define (σ : Store) (r : Nat) (x : String) (v : Expr) (q : Nat) :
    ((σ.define r x v).cell q).around = (σ.cell q).around := by
  rw [cell, cell, define, List.getElem?_modify]
  cases σ[q]? <;> grind

theorem depth_define (σ : Store) (r : Nat) (x : String) (v : Expr) (q : Nat) :
    ((σ.define r x v).cell q).depth = (σ.cell q).depth := by
  rw [cell, cell, define, List.getElem?_modify]
  cases σ[q]? <;> grind

theorem WellFormed.define (h : σ.WellFormed) (r : Nat) (x : String) (v : Expr) :
    (σ.define r x v).WellFormed where
  around hq := by
    rw [around_define] at hq ⊢
    exact h.around hq
  depth hq := by
    rw [around_define] at hq
    rw [depth_define]
    exact h.depth hq

theorem grows_define (h : σ.WellFormed) (r : Nat) (x : String) (v : Expr) :
    Grows (some r) σ (σ.define r x v) where
  wellFormed := h.define r x v
  length := by rw [Store.define, List.length_modify]
  cell q _ hq := cell_define_of_ne σ (fun hqr => hq (by rw [hqr])) x v
  around q _ := around_define σ r x v q
  depth q _ := depth_define σ r x v q

theorem view_define (h : σ.WellFormed) (hr : r < σ.length) (x : String) (v : Expr) :
    (σ.define r x v).view r = (σ.view r).define x v := by
  have haround : (σ.cell r).around.map (σ.define r x v).frame =
      (σ.cell r).around.map σ.frame := by
    refine List.map_congr_left fun p hp => congrArg Cell.frame ?_
    exact cell_define_of_ne σ (h.lt_of_mem_around hp).ne x v
  rw [view, around_define, depth_define, haround, frame, cell_define_self hr]
  rfl

/-! ## Making scopes -/

theorem cell_concat_of_lt (hr : r < σ.length) (c : Cell) : cell (σ ++ [c]) r = σ.cell r := by
  rw [cell, cell, List.getElem?_append_left hr]

theorem cell_concat_length (σ : Store) (c : Cell) : cell (σ ++ [c]) σ.length = c := by
  rw [cell, List.getElem?_concat_length]
  rfl

theorem wellFormed_callee (h : σ.WellFormed) (hr : r < σ.length) :
    WellFormed (σ ++ [σ.callee r]) := by
  have hroot : σ.root r < σ.length := (h.root_le r).trans_lt hr
  have hcell (q : Nat) : cell (σ ++ [σ.callee r]) q =
      if q = σ.length then σ.callee r else σ.cell q := by
    split
    next hq => rw [hq, cell_concat_length]
    next hq =>
      obtain hq | hq := Nat.lt_or_gt_of_ne hq
      · exact cell_concat_of_lt hq _
      · rw [cell, cell, List.getElem?_eq_none (List.length_append.trans_le hq),
          List.getElem?_eq_none hq.le]
  constructor
  · intro q p rest hq
    rw [hcell] at hq
    split at hq
    next hn =>
      cases hq
      rw [hn, cell_concat_of_lt hroot]
      exact ⟨hroot, h.around_root r⟩
    next =>
      obtain ⟨hp, hrest⟩ := h.around hq
      have hn : p ≠ σ.length := (hp.trans (lt_length_of_around hq)).ne
      exact ⟨hp, by rw [hcell, if_neg hn, hrest]⟩
  · intro q hq
    rw [hcell] at hq ⊢
    split at hq
    · cases hq
    next hn =>
      rw [if_neg hn]
      exact h.depth hq

theorem grows_callee (h : σ.WellFormed) (hr : r < σ.length) : Grows none σ (σ ++ [σ.callee r]) where
  wellFormed := wellFormed_callee h hr
  length := by
    rw [List.length_append]
    omega
  cell q hq _ := cell_concat_of_lt hq _
  around q hq := by rw [cell_concat_of_lt hq]
  depth q hq := by rw [cell_concat_of_lt hq]

theorem view_callee (h : σ.WellFormed) (hr : r < σ.length) :
    view (σ ++ [σ.callee r]) σ.length = (σ.view r).callee := by
  have hroot : σ.root r < σ.length := (h.root_le r).trans_lt hr
  rw [view, frame, cell_concat_length, Scope.callee, Scope.globals, view, callee, List.map_cons,
    List.map_nil, frame, cell_concat_of_lt hroot, List.getLast?_map, root]
  cases (σ.cell r).around.getLast? <;> rfl

/-! ## Scopes in a store -/

/-- The scope at an address is the one that is given. -/
structure Shows (σ : Store) (r : Nat) (scope : Scope) : Prop where
  wellFormed : σ.WellFormed
  lt : r < σ.length
  view : σ.view r = scope

namespace Shows

variable {scope : Scope}

theorem frame_eq (h : σ.Shows r scope) : σ.frame r = scope.frame := congrArg Scope.frame h.view

theorem depth_eq (h : σ.Shows r scope) : (σ.cell r).depth = scope.depth :=
  congrArg Scope.depth h.view

/-- Where no variables are set, the scope stays. -/
theorem mono (h : σ.Shows r scope) (hσ : Grows none σ σ') : σ'.Shows r scope :=
  ⟨hσ.wellFormed, h.lt.trans_le hσ.length, (hσ.view_eq h.wellFormed h.lt nofun).trans h.view⟩

theorem define (h : σ.Shows r scope) (x : String) (v : Expr) :
    (σ.define r x v).Shows r (scope.define x v) := by
  have hgrows := grows_define h.wellFormed r x v
  exact ⟨hgrows.wellFormed, h.lt.trans_le hgrows.length, by
    rw [view_define h.wellFormed h.lt, h.view]⟩

theorem root (h : σ.Shows r scope) : σ.Shows (σ.root r) scope.root :=
  ⟨h.wellFormed, (h.wellFormed.root_le r).trans_lt h.lt, by
    rw [view_root h.wellFormed, h.view]⟩

theorem callee (h : σ.Shows r scope) : Shows (σ ++ [σ.callee r]) σ.length scope.callee :=
  ⟨wellFormed_callee h.wellFormed h.lt, by simp, by rw [view_callee h.wellFormed h.lt, h.view]⟩

end Shows

end Store

end AchievementLang

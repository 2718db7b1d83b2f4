import AchievementLang.Proofs.Eval.StoreSimulation

/-!
# What evaluation leaves untouched

Whatever an expression is, and whether or not its evaluation fails, all variables that there were
before are as they were: those of the scope in which it is evaluated, of the scopes around it, and
of all that called it. Statements set variables of the scope in which they are run only, and only
those that are assigned by the statements themselves, not by the functions that they call. Both
leave what has been registered as it is and add to it at the end (`Store.leaves_untouched`).
-/

namespace AchievementLang

open Eval

/-- The variables that statements assign, not counting the bodies of functions. -/
def assigned (statements : List Expr) : List String :=
  statements.filterMap fun
    | .assign x _ _ => some x
    | _ => none

/-- Statements set the variables only that they assign. -/
theorem Engine.get?_execute (m : Engine) (body : List Expr) (scope : Scope) (s : State) {x : String}
    (hx : x ∉ assigned body) :
    ((m.execute scope body).run s).1.1.frame.get? x = scope.frame.get? x := by
  induction body generalizing scope s with
  | nil => rfl
  | cons e rest ih =>
    cases e with
    | assign y e loc =>
      obtain ⟨hne, hrest⟩ := not_or.1 fun h => hx (List.mem_cons.2 h)
      rw [run_execute_assign]
      split
      · rw [ih _ _ hrest, Scope.define, Bindings.get?_set, if_neg fun h => hne h.symm]
      · rfl
    | declare name params defaults body loc =>
      rw [run_execute_declare]
      split
      · rfl
      · exact ih _ _ hx
    | call name args loc =>
      rw [run_execute_call]
      split
      · exact ih _ _ hx
      · rfl
    | _ => rfl

namespace Store

variable {σ : Store} {r : Nat}

/-- To set no variables is to leave the store as it is and to go on from there. -/
theorem Grows.isPrefix {σ' : Store} (h : σ.Grows none σ') : σ <+: σ' := by
  refine List.prefix_iff_getElem.2 ⟨h.length, fun r hr => ?_⟩
  have hcell := h.cell r hr nofun
  rw [Store.cell, Store.cell, List.getElem?_eq_getElem hr,
    List.getElem?_eq_getElem (hr.trans_le h.length)] at hcell
  exact hcell.symm

/-- **The frame of evaluation.** To evaluate an expression at an address comes to what the
expression comes to in the scope there, and leaves every scope of the store as it was. To run
statements at an address comes to what they come to in the scope there, leaves every other scope as
it was, and sets variables of this one only that the statements assign. Nothing that has been
registered is lost or moved. All this holds also where evaluation fails. -/
theorem leaves_untouched (limit : Int) (hσ : σ.WellFormed) (hr : r < σ.length) (s : State) :
    (∀ e, ∃ v s' σ', σ.reduce limit r e s = (v, (s', σ')) ∧
      ((σ.view r).reduce limit e).run s = (v, s') ∧ σ <+: σ' ∧ s.Keeps s') ∧
    ∀ statements, ∃ v s' σ', σ.execute limit r statements s = (v, (s', σ')) ∧
      ((σ.view r).execute limit statements).run s = ((σ'.view r, v), s') ∧
      (σ.length ≤ σ'.length ∧ ∀ p < σ.length, p ≠ r → σ'.cell p = σ.cell p) ∧
      (∀ x ∉ assigned statements, (σ'.frame r).get? x = (σ.frame r).get? x) ∧ s.Keeps s' := by
  have hshows : σ.Shows r (σ.view r) := ⟨hσ, hr, rfl⟩
  have hm := mimics_within limit hshows
  refine ⟨fun e => ?_, fun statements => ?_⟩
  · have he := hm.reduce hshows e s
    rw [reduce, Scope.reduce]
    generalize ((σ.engine limit r).reduce r e).run (s, σ) = p,
      ((Engine.within limit (σ.view r)).reduce (σ.view r) e).run s = q at he ⊢
    cases he with
    | value hv hσ' hs =>
      cases hv
      exact ⟨_, _, _, rfl, rfl, hσ'.isPrefix, hs⟩
    | failure f hσ' hs => exact ⟨_, _, _, rfl, rfl, hσ'.isPrefix, hs⟩
  · have hleaves := hm.execute statements hshows s
    have hassigned {x : String} (hx : x ∉ assigned statements) :=
      (Engine.within limit (σ.view r)).get?_execute statements (σ.view r) s hx
    rw [execute, Scope.execute]
    generalize ((σ.engine limit r).run r statements).run (s, σ) = p,
      ((Engine.within limit (σ.view r)).execute (σ.view r) statements).run s = q
      at hleaves hassigned ⊢
    obtain ⟨v, s', σ'⟩ := p
    obtain ⟨⟨scope, v'⟩, s''⟩ := q
    obtain ⟨rfl, rfl, hgrows, hview, hs⟩ := hleaves
    refine ⟨v, s', σ', rfl, ?_, ⟨hgrows.length, fun p hp hpr => ?_⟩, fun x hx => ?_, hs⟩
    · rw [hview.view]
    · exact hgrows.cell p hp fun h => hpr (Option.some.inj h).symm
    · rw [hview.frame_eq]
      exact hassigned hx

/-- A global scope, and the scope of a function. -/
def twoScopes : Store :=
  [{ frame := [("n", .integer 1 none)] },
    { frame := [("m", .integer 5 none)], around := [0], depth := 1 }]

theorem wellFormed_twoScopes : twoScopes.WellFormed where
  around {r p rest} h := by
    match r with
    | 0 => cases h
    | 1 =>
      cases h
      exact ⟨Nat.zero_lt_one, rfl⟩
    | r + 2 => cases h
  depth {r} h := by
    match r with
    | 0 => rfl
    | 1 => cases h
    | r + 2 => rfl

/-- A function that assigns a variable of the name of a global. -/
def increment : Declaration :=
  ⟨"increment", ["n"], [], [.assign "n" (.math .add (.var "n" none) (.integer 1 none) none) none,
    .ret (.var "n" none) none]⟩

/-- The parameter is set in a scope of its own: the global of its name stays, and so do the
variables of the caller but for the one that is assigned there. -/
theorem leaves_untouched_twoScopes :
    ∃ s' σ', twoScopes.execute 2 1
        [.assign "m" (.call "increment" [.var "n" none] none) none]
        { functions := [("increment", .declared increment)] } = (.ok none, (s', σ')) ∧
      σ'.cell 0 = twoScopes.cell 0 ∧ σ'.frame 1 = [("m", .integer 2 none)] := by
  obtain ⟨v, s', σ', hrun, -, ⟨-, hcell⟩, -, -⟩ :=
    (leaves_untouched 2 wellFormed_twoScopes (r := 1) (by decide)
      { functions := [("increment", .declared increment)] }).2
      [.assign "m" (.call "increment" [.var "n" none] none) none]
  have hv : v = .ok none := (congrArg Prod.fst hrun).symm
  have hσ' : σ' = _ := (congrArg (fun p => p.2.2) hrun).symm
  refine ⟨s', σ', hv ▸ hrun, hcell 0 (by decide) (by decide), ?_⟩
  rw [hσ']
  rfl

end Store

end AchievementLang

import AchievementLang.Proofs.Eval.ConcurringEngines

/-!
# Evaluation where variables are replaced by what they hold

A variable may be replaced by the value that it holds (`Expr.substitute`), and the expression be
evaluated where the variable is not known: the outcome is the same (`Engine.Concurs.reduce`). In one
evaluation the value is looked up, in the other it is evaluated again, which it stands by
`Expr.IsReduced.gives`.

Since values evaluate to themselves only as long as the functions of the language are kept, the
comparison is of evaluations that keep them (`Comparison.keeping`). Of the second evaluation it says
something only where the first comes to a value, and it does not look at how deeply calls are
nested; of the first it says that it keeps the functions however it ends (`Scope.intact_reduce`).
-/

namespace AchievementLang

open Eval

/-- Evaluations are compared where they come to values, from like states in which the functions of
the language are what their names denote. -/
def Comparison.keeping : Comparison where
  places := true
  depths := false
  excused _ := True
  code := LeavesLanguage
  states s t := s.functions.Intact ∧ s.Alike t
  kept s := s.functions.Intact
  left h := h.1
  functions h := h.2.functions
  declares h := congrArg Option.isSome h.2.registry
  record h _ := ⟨h.1, h.2.functions, h.2.registry⟩
  register _ h := ⟨h.1, h.2.functions, congrArg (Option.map _) h.2.registry⟩
  declare hbody h :=
    ⟨h.1.set hbody.body hbody.name_ne, congrArg (Bindings.set · _ _) h.2.functions, h.2.registry⟩
  rest h := h.tail
  body h hd := h.1.bodies hd _ rfl

namespace Eval

variable {x y : Eval Expr} {v : Expr}

theorem inStep_of_gives (h : ∀ s, s.functions.Intact → Gives s y v) :
    InStep .keeping (Same Expr.bare true) (pure v) y := by
  intro s t hst
  obtain ⟨t', hrun, ht'⟩ := h s hst.1 t hst.2
  rw [hrun]
  exact .value (.refl _ _ _) ⟨hst.1, ht'⟩

/-- An evaluation that comes to a value in a like state does so from every like state. -/
theorem gives_of_inStep (hx : InStep .keeping (Same Expr.bare true) x x) {s s' : State}
    (hs : s.functions.Intact) (hrun : x.run s = (.ok v, s')) (hs' : s.Alike s') : Gives s x v := by
  intro t ht
  have h := hx s t ⟨hs, ht⟩
  rw [hrun] at h
  generalize x.run t = r at h
  cases h with
  | value hvw hst =>
    obtain rfl := hvw.eq rfl
    exact ⟨_, rfl, hs'.trans hst.2⟩

end Eval

/-- Engines of one limit differ only in the number of calls still permitted. -/
theorem concurs_keeping {limit : Int} {scope : Scope} {n : Nat}
    (h : n ≤ (limit - scope.depth).toNat) :
    (engine limit (restarting limit restartLimit) n).Concurs .keeping
      (Engine.within limit scope) :=
  concurs_engine (concurs_restarting le_rfl (.inl rfl) _) h (.inr fun _ _ => trivial)

namespace Scope

variable {limit : Int} {s : State}

/-- What an expression comes to does not depend on what happened before. -/
theorem inStep_reduce (limit : Int) (scope : Scope) (e : Expr) :
    InStep .keeping (Same Expr.bare true) (scope.reduce limit e) (scope.reduce limit e) :=
  (concurs_keeping le_rfl).reduce_like (.refl _ _ scope) e

/-- **The functions of the language are kept** by expressions, -/
theorem intact_reduce (limit : Int) (scope : Scope) (e : Expr) (hs : s.functions.Intact) :
    ((scope.reduce limit e).run s).2.functions.Intact :=
  (inStep_reduce limit scope e s s ⟨hs, .refl s⟩).left

/-- and by statements that declare none of them anew. -/
theorem intact_execute (limit : Int) (scope : Scope) {body : List Expr}
    (hbody : LeavesLanguage body) (hs : s.functions.Intact) :
    ((scope.execute limit body).run s).2.functions.Intact :=
  ((concurs_keeping le_rfl).run (.refl _ _ scope) hbody s s ⟨hs, .refl s⟩).left

end Scope

end AchievementLang

import AchievementLang.Proofs.Eval.Values

/-!
# Replacing variables

`Expr.substitute` puts expressions in the place of variables, all at once. Nothing is bound inside
of an expression, so there is nothing to be renamed; the bodies of functions are left as they are,
since variables there are those of the function. To replace nothing changes nothing
(`Expr.substitute_nil`).
-/

namespace AchievementLang

namespace Expr

mutual

/-- The node with variables replaced, all at once. Labels of arguments are no variables, and
neither are the names of functions. -/
def substitute (values : Bindings Expr) : Expr → Expr
  | .string s l => .string s l
  | .integer n l => .integer n l
  | .var x l => (values.get? x).getD (.var x l)
  | .call f args l => .call f (substituteAll values args) l
  | .compare r a b l => .compare r (a.substitute values) (b.substitute values) l
  | .math op a b l => .math op (a.substitute values) (b.substitute values) l
  | .not e l => .not (e.substitute values) l
  | .logic op es l => .logic op (substituteAll values es) l
  | .array es l => .array (substituteAll values es) l
  | .assign x e l => .assign x (e.substitute values) l
  | .ret e l => .ret (e.substitute values) l
  | .declare f params defaults body l => .declare f params defaults body l

/-- The nodes with variables replaced. -/
def substituteAll (values : Bindings Expr) : List Expr → List Expr
  | [] => []
  | e :: rest => e.substitute values :: substituteAll values rest

end

mutual

@[simp] theorem substitute_nil (e : Expr) : e.substitute [] = e := by
  cases e with
  | call f args l => rw [substitute, substituteAll_nil args]
  | compare r a b l => rw [substitute, substitute_nil a, substitute_nil b]
  | math op a b l => rw [substitute, substitute_nil a, substitute_nil b]
  | not e l => rw [substitute, substitute_nil e]
  | logic op es l => rw [substitute, substituteAll_nil es]
  | array es l => rw [substitute, substituteAll_nil es]
  | assign x e l => rw [substitute, substitute_nil e]
  | ret e l => rw [substitute, substitute_nil e]
  | _ => rfl

@[simp] theorem substituteAll_nil (es : List Expr) : substituteAll [] es = es := by
  cases es with
  | nil => rfl
  | cons e rest => rw [substituteAll, substitute_nil e, substituteAll_nil rest]

end

theorem IsPositional.substitute {values : Bindings Expr}
    (hvalues : ∀ {x v}, values.get? x = some v → v.IsPositional) {e : Expr}
    (h : e.IsPositional) : (e.substitute values).IsPositional := by
  cases e with
  | var x l =>
    rw [Expr.substitute]
    cases hx : values.get? x with
    | some v => exact hvalues hx
    | none => exact h
  | assign x e l => exact absurd rfl (h x e l)
  | _ => exact nofun

end Expr

end AchievementLang

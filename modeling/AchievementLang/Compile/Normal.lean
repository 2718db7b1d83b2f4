import AchievementLang.Function

/-!
# Negation normal form

Pushes negations down to the comparisons and merges nested conditions of one connective. What
has no opposite keeps its negation, directly above it.
-/

namespace AchievementLang.Compile

/-- The name of the condition that is the exact opposite of the function, if it has one. -/
def oppositeName? (functions : FunctionTable) (name : String) : Option String :=
  match functions.get? name with
  | some (.constant holds) => some (Function.constantName (!holds))
  | _ => none

/-- The negation of what is neither a negation nor a joined condition. Opposites of calls are
looked up in the functions, if any are given. -/
def negateAtom (functions : Option FunctionTable) : Expr → Expr
  | .compare r a b loc => .compare r.opposite a b loc
  | .call f args loc =>
    match functions.bind (oppositeName? · f) with
    | some g => .call g [] loc
    | none => .not (.call f args loc) loc
  | e => .not e e.loc

/-- The connective, or its dual under a negation. -/
def polarized (negated : Bool) (op : Connective) : Connective := if negated then op.dual else op

mutual

/-- The normal form of an expression, or of its negation. -/
def normalize (functions : Option FunctionTable) (negated : Bool) : Expr → Expr
  | .not e _ => normalize functions (!negated) e
  | .logic op es loc =>
    .logic (polarized negated op)
      (normalizeOperands functions negated (polarized negated op) es) loc
  | e => if negated then negateAtom functions e else e

/-- The normal forms of the operands of a node of the connective, merged into it. -/
def normalizeOperands (functions : Option FunctionTable) (negated : Bool) (op : Connective) :
    List Expr → List Expr
  | [] => []
  | e :: rest =>
    (normalize functions negated e).operandsOf op ++
      normalizeOperands functions negated op rest

end

end AchievementLang.Compile

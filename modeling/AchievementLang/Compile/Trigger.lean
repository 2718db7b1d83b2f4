import AchievementLang.Compile.Condition

/-!
# Achievement triggers

An achievement may have one alternative at the top level of its condition. It becomes the
alternate groups of the trigger; everything else goes into the core.
-/

namespace AchievementLang.Compile

/-- The operands of a conjunction, or the expression itself. -/
def conjuncts (e : Expr) : List Expr := e.operandsOf .and

/-- The terms that go into the core, and the operands of the one alternative, if there is
any. -/
structure Split where
  core : List Expr := []
  alternative : Option (List Expr) := none

/-- The rows of each alternate group. -/
def alternateGroups (functions : FunctionTable) :
    List Expr → Except Failure (List Wire.Group)
  | [] => .ok []
  | e :: rest =>
    match conditionRows functions false e with
    | .error f => .error f
    | .ok rows =>
      match alternateGroups functions rest with
      | .error f => .error f
      | .ok groups => .ok (rows :: groups)

/-- The rows of the core and the alternative among terms. Terms are compiled in order, so the
first term that fails decides the error; `outer` is the place of the whole condition. -/
def coreRows (functions : FunctionTable) (outer : Option Loc) (alternative : Option (List Expr)) :
    List Expr → Except Failure (Wire.Group × Option (List Expr))
  | [] => .ok ([], alternative)
  | .logic .or es loc :: rest =>
    match alternative with
    | some _ => .error (.at? .secondOr (loc.or outer))
    | none => coreRows functions outer (some es) rest
  | e :: rest =>
    match conditionRows functions false e with
    | .error f => .error f
    | .ok rows =>
      match coreRows functions outer alternative rest with
      | .error f => .error f
      | .ok (more, found) => .ok (rows ++ more, found)

/-- The trigger of an achievement's condition. -/
def trigger (functions : FunctionTable) (e : Expr) : Except Failure Wire.Trigger :=
  let normal := normalize (some functions) false e
  match coreRows functions normal.loc none (conjuncts normal) with
  | .error f => .error f
  | .ok (core, alternative) =>
    match alternateGroups functions (alternative.getD []) with
    | .error f => .error f
    | .ok alternates => .ok ⟨core, alternates⟩

end AchievementLang.Compile

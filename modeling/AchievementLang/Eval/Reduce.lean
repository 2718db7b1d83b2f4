import AchievementLang.Eval.Arithmetic
import AchievementLang.Eval.Language

/-!
# Evaluation

`reduce` evaluates an expression and `execute` runs statements. Both go by the structure of
what they are given; a call of a declared function is left to an `Engine`, which knows how to
evaluate one call deeper. `engine` ties the knot over the number of calls that are still
permitted, so that evaluation ends because the depth of calls is limited.

One call escapes the limit: `bit` evaluates what it stands for from the global scope, where
the count of calls starts again. Nothing can nest there unless a script redefines the accessor
of a single bit through `bit` itself, so those restarts are counted too, and a run of
`restartLimit` of them inside each other is taken to be endless.
-/

namespace AchievementLang

/-- Evaluation one call deeper. -/
structure Inner where
  reduce : Scope → Expr → Eval Expr
  /-- Runs statements. The value is that of the first `return`. -/
  run : Scope → List Expr → Eval (Option Expr)

/-- How calls are evaluated. -/
structure Engine where
  /-- The greatest depth of calls. -/
  limit : Int
  /-- None if no more calls are permitted. -/
  inner : Option Inner
  /-- Evaluates an expression in the global scope, where the count of calls starts again. -/
  restart : Scope → Expr → Eval Expr

namespace Activation

/-- A call of a declared function: the value that it returns, if any. -/
def runDeclared (inner : Inner) (a : Activation) (d : Declaration) : Eval (Option Expr) := do
  if a.function.isVariadic then
    let values ← a.reducedSurplus
    inner.run (a.scope.define surplusVariable (.array values a.loc)) d.body
  else inner.run a.scope d.body

/-- The value of a call. -/
def reduce (m : Engine) (inner : Inner) (a : Activation) : Eval Expr :=
  match a.function with
  | .accessor _ => a.accessor
  | .bit => do m.restart a.scope.root (← a.bit)
  | .prev => a.prev
  | .once | .never | .pausing => a.around
  | .repeated => a.repeated
  | .constant _ => return a.again []
  | .maxOf => a.maxOf
  | .achievement | .leaderboard => Eval.fail (.noReturnValue a.function.name) a.loc
  | .declared d => do
    match ← a.runDeclared inner d with
    | some v => return v
    | none => Eval.fail (.noReturnValue d.name) a.loc

/-- The effect of a call. -/
def evaluate (m : Engine) (inner : Inner) (a : Activation) : Eval Unit :=
  match a.function with
  | .achievement => a.registerAchievement
  | .leaderboard => a.registerLeaderboard
  | .declared d => do discard (a.runDeclared inner d)
  | _ => do discard (a.reduce m inner)

end Activation

namespace Engine

/-- The function that a call names. -/
def resolve (name : String) (loc : Option Loc) : Eval Function := do
  match ← Eval.function? name with
  | some f => return f
  | none => Eval.fail (.unknownFunction name) loc

/-- Calls a function from a scope. -/
def enter (m : Engine) (scope : Scope) (name : String) (args : List Argument) (loc : Option Loc) :
    Eval (Inner × Activation) := do
  let f ← resolve name loc
  match m.inner with
  | none => Eval.fail (.callDepth m.limit name) loc
  | some inner => return (inner, ← Activation.bind f inner.reduce scope loc args)

/-- The value of a call. -/
def call (m : Engine) (scope : Scope) (name : String) (args : List Argument) (loc : Option Loc) :
    Eval Expr := do
  let (inner, a) ← m.enter scope name args loc
  Eval.record (.reducing name a.scope.depth)
  a.reduce m inner

/-- The effect of a call. -/
def perform (m : Engine) (scope : Scope) (name : String) (args : List Argument)
    (loc : Option Loc) : Eval Unit := do
  let (inner, a) ← m.enter scope name args loc
  Eval.record (.evaluating name a.scope.depth)
  a.evaluate m inner

mutual

/-- The value of an expression. -/
def reduce (m : Engine) (scope : Scope) : Expr → Eval Expr
  | .string s loc => return .string s loc
  | .integer n loc => return .integer n loc
  | .var x loc =>
    match scope.get? x with
    | some v => return v
    | none => Eval.fail (.unknownVariable x) loc
  | .call name args loc => m.call scope name (arguments m scope args) loc
  | .compare r a b loc => do
    let a ← reduce m scope a
    let b ← reduce m scope b
    return .compare r a b loc
  | .math op a b loc => do
    let a ← reduce m scope a
    let b ← reduce m scope b
    Eval.ofExcept ((Expr.combine op a b loc).mapError .fault)
  | .not e loc => do return .not (← reduce m scope e) loc
  | .logic op es loc => do return .logic op (← reduceAll m scope es) loc
  | .array es loc => do return .array (← reduceAll m scope es) loc
  | .assign x e loc => Eval.fail (.notAnExpression (Expr.assign x e loc).kind) loc
  | .ret e loc => Eval.fail (.notAnExpression (Expr.ret e loc).kind) loc
  | .declare f params defaults body loc =>
    Eval.fail (.notAnExpression (Expr.declare f params defaults body loc).kind) loc

/-- The values of expressions, in order. -/
def reduceAll (m : Engine) (scope : Scope) : List Expr → Eval (List Expr)
  | [] => return []
  | e :: rest => do
    let v ← reduce m scope e
    return v :: (← reduceAll m scope rest)

/-- The arguments of a call, to be evaluated in the scope. -/
def arguments (m : Engine) (scope : Scope) : List Expr → List Argument
  | [] => []
  | .assign x e loc :: rest =>
    { label := some x, source := e, loc := loc, reduce := reduce m scope e } ::
      arguments m scope rest
  | e :: rest =>
    { label := none, source := e, loc := e.loc, reduce := reduce m scope e } ::
      arguments m scope rest

end

/-! ## Statements -/

/-- What running statements came to: the scope afterwards, and the value of the first `return`
or the failure that ended the run. -/
abbrev Outcome := Scope × Except Failure (Option Expr)

/-- Runs statements. Variables that were set before a failure stay set. -/
def execute (m : Engine) : Scope → List Expr → StateM State Outcome
  | scope, [] => return (scope, .ok none)
  | scope, .ret e _ :: _ => do return (scope, (← (m.reduce scope e).run).map some)
  | scope, .assign x e _ :: rest => do
    match ← (m.reduce scope e).run with
    | .ok v => execute m (scope.define x v) rest
    | .error f => return (scope, .error f)
  | scope, .declare name params defaults body loc :: rest =>
    if params.dropLast.contains ellipsis then return (scope, .error (.at? .ellipsisNotLast loc))
    else do
      modify (Eval.declare ⟨name, params, defaults, body⟩)
      execute m scope rest
  | scope, .call name args loc :: rest => do
    match ← (m.perform scope name (m.arguments scope args) loc).run with
    | .ok () => execute m scope rest
    | .error f => return (scope, .error f)
  | scope, e :: _ => return (scope, .error (.at? .notAStatement e.loc))

/-- Runs statements for their value alone. -/
def run (m : Engine) (scope : Scope) (body : List Expr) : Eval (Option Expr) :=
  ExceptT.mk (do return (← m.execute scope body).2)

end Engine

/-! ## Engines -/

/-- The engine with a number of calls still permitted. -/
def engine (limit : Int) (restart : Scope → Expr → Eval Expr) : Nat → Engine
  | 0 => { limit := limit, inner := none, restart := restart }
  | n + 1 =>
    { limit := limit, restart := restart,
      inner := some
        { reduce := fun scope e => (engine limit restart n).reduce scope e
          run := fun scope body => (engine limit restart n).run scope body } }

/-- The number of restarts inside each other that is taken for endless. -/
def restartLimit : Nat := 1000

/-- Evaluates an expression anew, with a number of further restarts permitted. -/
def restarting (limit : Int) : Nat → Scope → Expr → Eval Expr
  | 0, _, _ => throw (.breakdown .endless)
  | n + 1, scope, e => (engine limit (restarting limit n) limit.toNat).reduce scope e

/-- The engine for a scope: calls may nest up to the limit. -/
def Engine.within (limit : Int) (scope : Scope) : Engine :=
  engine limit (restarting limit restartLimit) (limit - scope.depth).toNat

namespace Scope

/-- The value of an expression in the scope. -/
def reduce (limit : Int) (scope : Scope) (e : Expr) : Eval Expr :=
  (Engine.within limit scope).reduce scope e

/-- Runs statements in the scope. -/
def execute (limit : Int) (scope : Scope) (statements : List Expr) :
    StateM State Engine.Outcome :=
  (Engine.within limit scope).execute scope statements

/-- Binds the arguments of a call. A depth for this call alone may stand in for the limit. -/
def bindCall (limit : Int) (depth : Option Int) (scope : Scope) (name : String)
    (args : List Expr) (loc : Option Loc) : Eval Activation := do
  let f ← Engine.resolve name loc
  let greatest := depth.getD limit
  if greatest ≤ scope.depth then Eval.fail (.callDepth greatest name) loc
  else
    Activation.bind f (Engine.within limit scope.callee).reduce scope loc
      ((Engine.within limit scope).arguments scope args)

end Scope

end AchievementLang

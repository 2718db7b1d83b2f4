import AchievementLang.Eval.Reduce
import AchievementLang.Proofs.Eval.Store

/-!
# Evaluation with variables set in place

Evaluation hands scopes on as values, so nothing that it does can be seen in a scope that was there
before. This module evaluates the same expressions and statements in a store, all of whose variables
can be set at any time. What is left untouched is then no matter of types: functions are called with
the addresses of scopes, parameters and variables are set where they are, and surplus arguments are
evaluated at the address of the caller when they are needed.

The functions of the language that evaluate nothing themselves only read their parameters, and are
carried out on what there is of these at the time (`StoreActivation.read`).
-/

namespace AchievementLang

/-! ## Evaluation in a store -/

/-- Evaluation with variables set in place. A failure leaves the store as it was when it arose. -/
abbrev StoreEval := ExceptT Failure (StateM (State × Store))

namespace StoreEval

variable {α : Type}

/-- An evaluation that has nothing to do with the store. -/
def ofEval (x : Eval α) : StoreEval α :=
  ExceptT.mk fun p => ((x.run p.1).1, ((x.run p.1).2, p.2))

/-- Fails for a cause at a place. -/
def fail (cause : Cause) (loc : Option Loc) : StoreEval α := ofEval (Eval.fail cause loc)

/-- The store as it is now. -/
def store : StoreEval Store := return (← get).2

/-- Sets a variable at an address. -/
def define (r : Nat) (x : String) (v : Expr) : StoreEval Unit :=
  modify fun p => (p.1, p.2.define r x v)

/-- Makes a new scope, and tells its address. -/
def create (c : Cell) : StoreEval Nat := do
  let σ ← store
  modify fun p => (p.1, p.2 ++ [c])
  return σ.length

end StoreEval

/-! ## Binding -/

/-- An argument of a call, to be evaluated at the address of the caller. -/
structure StoreArgument where
  label : Option String
  source : Expr
  loc : Option Loc
  reduce : StoreEval Expr

/-- A function that is being called. -/
structure StoreActivation where
  function : Function
  /-- The address of its scope. -/
  scope : Nat
  surplus : List StoreArgument
  loc : Option Loc

namespace StoreActivation

/-- What has been bound after some of the arguments, beside the parameters. -/
structure Progress where
  next : List String
  labelled : Bool := false
  surplus : List StoreArgument := []

/-- Binds a parameter of the given name. -/
def bindNamed (f : Function) (r : Nat) (p : Progress) (x : String) (a : StoreArgument) :
    StoreEval Progress := do
  if !f.fixed.contains x then StoreEval.fail (.noSuchParameter f.name x) a.loc
  else if ((← StoreEval.store).frame r).has x then StoreEval.fail (.givenTwice x) a.loc
  else
    StoreEval.define r x (← a.reduce)
    return { p with labelled := true }

/-- Binds the next parameter. -/
def bindNext (f : Function) (r : Nat) (p : Progress) (a : StoreArgument) : StoreEval Progress :=
  if p.labelled then StoreEval.fail .positionalAfterNamed a.loc
  else
    match p.next with
    | x :: rest => do
      StoreEval.define r x (← a.reduce)
      return { p with next := rest }
    | [] =>
      if f.isVariadic then return { p with surplus := p.surplus ++ [a] }
      else StoreEval.fail (.tooManyArguments f.name) a.loc

/-- Binds an argument. -/
def bindArgument (f : Function) (r : Nat) (p : Progress) (a : StoreArgument) :
    StoreEval Progress :=
  match a.label with
  | some x => bindNamed f r p x a
  | none => bindNext f r p a

/-- Binds a parameter to its default, unless it is bound already. -/
def bindDefault (f : Function) (reduce : Nat → Expr → StoreEval Expr) (loc : Option Loc) (r : Nat)
    (x : String) : StoreEval Unit := do
  if ((← StoreEval.store).frame r).has x then return
  else
    match f.defaults.get? x with
    | none => StoreEval.fail (.notGiven f.name x) loc
    | some e => StoreEval.define r x (← reduce r e)

/-- Binds the surplus arguments, if the function takes any number of them. -/
def bindSurplus (f : Function) (loc : Option Loc) (surplus : List StoreArgument) (r : Nat) :
    StoreEval Unit :=
  if f.isVariadic then
    StoreEval.define r surplusVariable (.array (surplus.map (·.source)) loc)
  else return

/-- Calls a function from an address. -/
def bind (f : Function) (reduce : Nat → Expr → StoreEval Expr) (caller : Nat) (loc : Option Loc)
    (args : List StoreArgument) : StoreEval StoreActivation := do
  let r ← StoreEval.create ((← StoreEval.store).callee caller)
  let bound ← args.foldlM (bindArgument f r) { next := f.fixed }
  f.fixed.forM (bindDefault f reduce loc r)
  bindSurplus f loc bound.surplus r
  return { function := f, scope := r, surplus := bound.surplus, loc := loc }

/-! ## Calls -/

/-- The function with its parameters as they are now. -/
def view (σ : Store) (a : StoreActivation) : Activation :=
  { function := a.function, scope := σ.view a.scope, surplus := [], loc := a.loc }

/-- Carries out a function that only reads its parameters. -/
def read {α : Type} (a : StoreActivation) (x : Activation → Eval α) : StoreEval α := do
  StoreEval.ofEval (x (a.view (← StoreEval.store)))

/-- The surplus arguments, evaluated where they were written. -/
def reducedSurplus (a : StoreActivation) : StoreEval (List Expr) := a.surplus.mapM (·.reduce)

/-- The largest of several values. -/
def maxOf (a : StoreActivation) : StoreEval Expr :=
  if a.surplus.isEmpty then StoreEval.fail .nothingToCompare a.loc
  else do return .call a.function.name (← a.reducedSurplus) a.loc

end StoreActivation

/-- Evaluation one call deeper. -/
structure StoreInner where
  reduce : Nat → Expr → StoreEval Expr
  run : Nat → List Expr → StoreEval (Option Expr)

/-- How calls are evaluated. -/
structure StoreEngine where
  limit : Int
  inner : Option StoreInner
  restart : Nat → Expr → StoreEval Expr

namespace StoreActivation

/-- A call of a declared function. -/
def runDeclared (inner : StoreInner) (a : StoreActivation) (d : Declaration) :
    StoreEval (Option Expr) := do
  if a.function.isVariadic then
    StoreEval.define a.scope surplusVariable (.array (← a.reducedSurplus) a.loc)
  inner.run a.scope d.body

/-- The value of a call. -/
def reduce (m : StoreEngine) (inner : StoreInner) (a : StoreActivation) : StoreEval Expr :=
  match a.function with
  | .accessor _ => a.read Activation.accessor
  | .bit => do
    let r := (← StoreEval.store).root a.scope
    m.restart r (← a.read Activation.bit)
  | .prev => a.read Activation.prev
  | .once | .never | .pausing => a.read Activation.around
  | .repeated => a.read Activation.repeated
  | .constant _ => return .call a.function.name [] a.loc
  | .maxOf => a.maxOf
  | .achievement | .leaderboard => StoreEval.fail (.noReturnValue a.function.name) a.loc
  | .declared d => do
    match ← a.runDeclared inner d with
    | some v => return v
    | none => StoreEval.fail (.noReturnValue d.name) a.loc

/-- The effect of a call. -/
def evaluate (m : StoreEngine) (inner : StoreInner) (a : StoreActivation) : StoreEval Unit :=
  match a.function with
  | .achievement => a.read Activation.registerAchievement
  | .leaderboard => a.read Activation.registerLeaderboard
  | .declared d => do discard (a.runDeclared inner d)
  | _ => do discard (a.reduce m inner)

end StoreActivation

namespace StoreEngine

/-- Calls a function from an address. -/
def enter (m : StoreEngine) (r : Nat) (name : String) (args : List StoreArgument)
    (loc : Option Loc) : StoreEval (StoreInner × StoreActivation) := do
  let f ← StoreEval.ofEval (Engine.resolve name loc)
  match m.inner with
  | none => StoreEval.fail (.callDepth m.limit name) loc
  | some inner => return (inner, ← StoreActivation.bind f inner.reduce r loc args)

/-- The value of a call. -/
def call (m : StoreEngine) (r : Nat) (name : String) (args : List StoreArgument)
    (loc : Option Loc) : StoreEval Expr := do
  let (inner, a) ← m.enter r name args loc
  let σ ← StoreEval.store
  StoreEval.ofEval (Eval.record (.reducing name (σ.cell a.scope).depth))
  a.reduce m inner

/-- The effect of a call. -/
def perform (m : StoreEngine) (r : Nat) (name : String) (args : List StoreArgument)
    (loc : Option Loc) : StoreEval Unit := do
  let (inner, a) ← m.enter r name args loc
  let σ ← StoreEval.store
  StoreEval.ofEval (Eval.record (.evaluating name (σ.cell a.scope).depth))
  a.evaluate m inner

mutual

/-- The value of an expression. -/
def reduce (m : StoreEngine) (r : Nat) : Expr → StoreEval Expr
  | .string s loc => return .string s loc
  | .integer n loc => return .integer n loc
  | .var x loc => do
    match ((← StoreEval.store).view r).get? x with
    | some v => return v
    | none => StoreEval.fail (.unknownVariable x) loc
  | .call name args loc => m.call r name (arguments m r args) loc
  | .compare rel a b loc => do
    let a ← reduce m r a
    let b ← reduce m r b
    return .compare rel a b loc
  | .math op a b loc => do
    let a ← reduce m r a
    let b ← reduce m r b
    StoreEval.ofEval (Eval.ofExcept ((Expr.combine op a b loc).mapError .fault))
  | .not e loc => do return .not (← reduce m r e) loc
  | .logic op es loc => do return .logic op (← reduceAll m r es) loc
  | .array es loc => do return .array (← reduceAll m r es) loc
  | .assign x e loc => StoreEval.fail (.notAnExpression (Expr.assign x e loc).kind) loc
  | .ret e loc => StoreEval.fail (.notAnExpression (Expr.ret e loc).kind) loc
  | .declare f params defaults body loc =>
    StoreEval.fail (.notAnExpression (Expr.declare f params defaults body loc).kind) loc

/-- The values of expressions, in order. -/
def reduceAll (m : StoreEngine) (r : Nat) : List Expr → StoreEval (List Expr)
  | [] => return []
  | e :: rest => do
    let v ← reduce m r e
    return v :: (← reduceAll m r rest)

/-- The arguments of a call, to be evaluated at the address. -/
def arguments (m : StoreEngine) (r : Nat) : List Expr → List StoreArgument
  | [] => []
  | .assign x e loc :: rest =>
    { label := some x, source := e, loc := loc, reduce := reduce m r e } :: arguments m r rest
  | e :: rest =>
    { label := none, source := e, loc := e.loc, reduce := reduce m r e } :: arguments m r rest

end

/-- Runs statements. The value is that of the first `return`. -/
def run (m : StoreEngine) (r : Nat) : List Expr → StoreEval (Option Expr)
  | [] => return none
  | .ret e _ :: _ => do return some (← m.reduce r e)
  | .assign x e _ :: rest => do
    StoreEval.define r x (← m.reduce r e)
    run m r rest
  | .declare name params defaults body loc :: rest =>
    if params.dropLast.contains ellipsis then StoreEval.fail .ellipsisNotLast loc
    else do
      StoreEval.ofEval (modify (Eval.declare ⟨name, params, defaults, body⟩))
      run m r rest
  | .call name args loc :: rest => do
    m.perform r name (m.arguments r args) loc
    run m r rest
  | e :: _ => StoreEval.fail .notAStatement e.loc

end StoreEngine

/-- The engine with a number of calls still permitted. -/
def storeEngine (limit : Int) (restart : Nat → Expr → StoreEval Expr) : Nat → StoreEngine
  | 0 => { limit := limit, inner := none, restart := restart }
  | n + 1 =>
    { limit := limit, restart := restart,
      inner := some
        { reduce := fun r e => (storeEngine limit restart n).reduce r e
          run := fun r body => (storeEngine limit restart n).run r body } }

/-- Evaluates an expression anew, with a number of further restarts permitted. -/
def storeRestarting (limit : Int) : Nat → Nat → Expr → StoreEval Expr
  | 0, _, _ => throw (.breakdown .endless)
  | n + 1, r, e => (storeEngine limit (storeRestarting limit n) limit.toNat).reduce r e

namespace Store

/-- The engine for the scope at an address. -/
def engine (limit : Int) (σ : Store) (r : Nat) : StoreEngine :=
  storeEngine limit (storeRestarting limit restartLimit) (limit - (σ.cell r).depth).toNat

/-- The value of an expression at an address, with what has become of state and store. -/
def reduce (limit : Int) (σ : Store) (r : Nat) (e : Expr) (s : State) :
    Except Failure Expr × (State × Store) :=
  ((σ.engine limit r).reduce r e).run (s, σ)

/-- Runs statements at an address. -/
def execute (limit : Int) (σ : Store) (r : Nat) (statements : List Expr) (s : State) :
    Except Failure (Option Expr) × (State × Store) :=
  ((σ.engine limit r).run r statements).run (s, σ)

end Store

end AchievementLang

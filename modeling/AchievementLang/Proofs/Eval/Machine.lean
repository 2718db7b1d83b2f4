import AchievementLang.Eval.Reduce
import Mathlib.Logic.Function.Iterate

/-!
# The evaluation machine

Evaluation as it goes on step by step: a configuration is a control, the state, and a stack of
frames that tell what becomes of the result. Nothing here counts how many calls are still permitted,
or how often evaluation starts over from the global scope: a call looks at the depth of the scope
that it is made from, and `bit` goes on with the call that it stands for, in the global scope. So it
is a matter of proof that a run of the machine ends.

The functions of the language that evaluate nothing themselves are carried out in one step. What
every step takes place in is a scope, and `Config.scopes` holds all that there are. Scopes of
functions are made by calls only, which keeps them from growing deeper than the limit
(`Machine.within_iterate_step`).
-/

namespace AchievementLang.Machine

/-! ## Configurations -/

/-- What a function is called for. -/
inductive Purpose
  /-- The call is an expression. -/
  | value
  /-- The call is a statement. -/
  | effect

/-- A call that is under way. -/
structure Call where
  purpose : Purpose
  /-- The name by which the function was called. -/
  name : String
  function : Function
  /-- The scope of the caller, where the arguments are evaluated. -/
  caller : Scope
  loc : Option Loc

/-- What has been bound after some of the arguments of a call. -/
structure Bound where
  scope : Scope
  /-- The parameters that arguments without a label come to next. -/
  next : List String
  /-- An argument had a label. -/
  labelled : Bool := false
  /-- Arguments beyond the parameters, yet to be evaluated. -/
  surplus : List Expr := []

/-- A node with two operands. -/
inductive Binary
  | compare (r : Relation)
  | math (op : Operator)

/-- A node with any number of operands. -/
inductive Listing
  | logic (op : Connective)
  | array

/-- What is to be done with a result. -/
inductive Frame
  /-- The left operand of a node is being evaluated. -/
  | left (node : Binary) (scope : Scope) (right : Expr) (loc : Option Loc)
  /-- The right operand of a node is being evaluated. -/
  | right (node : Binary) (left : Expr) (loc : Option Loc)
  | negation (loc : Option Loc)
  /-- One of several expressions is being evaluated. -/
  | item (scope : Scope) (values rest : List Expr)
  /-- The operands of a node are being evaluated. -/
  | listing (node : Listing) (loc : Option Loc)
  /-- The argument for a parameter is being evaluated. -/
  | argument (c : Call) (b : Bound) (x : String) (rest : List Expr)
  /-- The default of a parameter is being evaluated. -/
  | default (c : Call) (surplus : List Expr) (scope : Scope) (x : String) (rest : List String)
  /-- The arguments of `max_of` are being evaluated. -/
  | largest (c : Call)
  /-- The surplus arguments of a declared function are being evaluated. -/
  | surplus (c : Call) (scope : Scope) (body : List Expr)
  /-- The body of a declared function is running. -/
  | body (c : Call)
  /-- A call as a statement is being evaluated for its value. -/
  | discarding
  | assigning (scope : Scope) (x : String) (rest : List Expr)
  | returning (scope : Scope)
  /-- A call as a statement is under way. -/
  | calling (scope : Scope) (rest : List Expr)

/-- What the machine is at. -/
inductive Control
  | reduce (scope : Scope) (e : Expr)
  | reduceAll (scope : Scope) (values rest : List Expr)
  | call (purpose : Purpose) (scope : Scope) (name : String) (args : List Expr) (loc : Option Loc)
  /-- Arguments are being bound. -/
  | bind (c : Call) (b : Bound) (args : List Expr)
  /-- Defaults are being bound. -/
  | fill (c : Call) (surplus : List Expr) (scope : Scope) (params : List String)
  /-- All parameters are bound. -/
  | enter (c : Call) (surplus : List Expr) (scope : Scope)
  | run (scope : Scope) (body : List Expr)
  | value (v : Expr)
  | values (vs : List Expr)
  /-- A call as a statement has been carried out. -/
  | finished
  /-- Statements have been run, as in `Engine.Outcome`. -/
  | ran (scope : Scope) (result : Except Failure (Option Expr))
  | failed (f : Failure)

/-- A configuration. -/
structure Config where
  control : Control
  state : State
  stack : List Frame

/-! ## Steps -/

/-- Goes on with a value, or fails. -/
def Control.ofResult {α : Type} (next : α → Control) : Except Failure α → Control
  | .ok a => next a
  | .error f => .failed f

/-- The node with its operands evaluated. -/
def Binary.combine (a b : Expr) (loc : Option Loc) : Binary → Except Failure Expr
  | .compare r => .ok (.compare r a b loc)
  | .math op => (Expr.combine op a b loc).mapError .fault

/-- The node with its operands evaluated. -/
def Listing.node (es : List Expr) (loc : Option Loc) : Listing → Expr
  | .logic op => .logic op es loc
  | .array => .array es loc

/-- The call with its parameters bound, for functions that do not look at surplus arguments. -/
def Call.activation (c : Call) (scope : Scope) : Activation :=
  { function := c.function, scope := scope, surplus := [], loc := c.loc }

/-- What a call comes to when the body of the function has run. -/
def Call.returned (c : Call) (v : Option Expr) : Control :=
  match c.purpose, v with
  | .effect, _ => .finished
  | .value, some v => .value v
  | .value, none => .failed (.at? (.noReturnValue c.function.name) c.loc)

section Steps

variable (s : State) (stack : List Frame)

/-- Carries out an evaluation at once. -/
def perform {α : Type} (next : α → Control) (x : Eval α) : Config :=
  ⟨.ofResult next (x.run s).1, (x.run s).2, stack⟩

/-- Starts to evaluate an expression. -/
def startReduce (scope : Scope) : Expr → Config
  | .string text loc => ⟨.value (.string text loc), s, stack⟩
  | .integer n loc => ⟨.value (.integer n loc), s, stack⟩
  | .var x loc =>
    match scope.get? x with
    | some v => ⟨.value v, s, stack⟩
    | none => ⟨.failed (.at? (.unknownVariable x) loc), s, stack⟩
  | .call name args loc => ⟨.call .value scope name args loc, s, stack⟩
  | .compare r a b loc => ⟨.reduce scope a, s, .left (.compare r) scope b loc :: stack⟩
  | .math op a b loc => ⟨.reduce scope a, s, .left (.math op) scope b loc :: stack⟩
  | .not e loc => ⟨.reduce scope e, s, .negation loc :: stack⟩
  | .logic op es loc => ⟨.reduceAll scope [] es, s, .listing (.logic op) loc :: stack⟩
  | .array es loc => ⟨.reduceAll scope [] es, s, .listing .array loc :: stack⟩
  | .assign x e loc => ⟨.failed (.at? (.notAnExpression (Expr.assign x e loc).kind) loc), s, stack⟩
  | .ret e loc => ⟨.failed (.at? (.notAnExpression (Expr.ret e loc).kind) loc), s, stack⟩
  | .declare f params defaults body loc =>
    ⟨.failed (.at? (.notAnExpression (Expr.declare f params defaults body loc).kind) loc), s, stack⟩

/-- Starts a call of a function, if there is one. This is where the depth of calls is limited. -/
def startCall (limit : Int) (purpose : Purpose) (scope : Scope) (name : String) (args : List Expr)
    (loc : Option Loc) : Option Function → Config
  | none => ⟨.failed (.at? (.unknownFunction name) loc), s, stack⟩
  | some f =>
    if limit ≤ scope.depth then ⟨.failed (.at? (.callDepth limit name) loc), s, stack⟩
    else ⟨.bind ⟨purpose, name, f, scope, loc⟩ { scope := scope.callee, next := f.fixed } args,
      s, stack⟩

/-- Binds a parameter of the given name to an argument. -/
def bindNamed (c : Call) (b : Bound) (x : String) (e : Expr) (loc : Option Loc)
    (rest : List Expr) : Config :=
  if !c.function.fixed.contains x then
    ⟨.failed (.at? (.noSuchParameter c.function.name x) loc), s, stack⟩
  else if b.scope.frame.has x then ⟨.failed (.at? (.givenTwice x) loc), s, stack⟩
  else ⟨.reduce c.caller e, s, .argument c { b with labelled := true } x rest :: stack⟩

/-- Binds the next parameter to an argument without a label. -/
def bindNext (c : Call) (b : Bound) (e : Expr) (rest : List Expr) : Config :=
  if b.labelled then ⟨.failed (.at? .positionalAfterNamed e.loc), s, stack⟩
  else
    match b.next with
    | x :: next => ⟨.reduce c.caller e, s, .argument c { b with next := next } x rest :: stack⟩
    | [] =>
      if c.function.isVariadic then ⟨.bind c { b with surplus := b.surplus ++ [e] } rest, s, stack⟩
      else ⟨.failed (.at? (.tooManyArguments c.function.name) e.loc), s, stack⟩

/-- Binds a parameter to its default, unless it is bound already. -/
def bindDefault (c : Call) (surplus : List Expr) (scope : Scope) (x : String)
    (rest : List String) : Config :=
  if scope.frame.has x then ⟨.fill c surplus scope rest, s, stack⟩
  else
    match c.function.defaults.get? x with
    | none => ⟨.failed (.at? (.notGiven c.function.name x) c.loc), s, stack⟩
    | some e => ⟨.reduce scope e, s, .default c surplus scope x rest :: stack⟩

/-- The scope with the surplus arguments bound, if the function takes any number of them. -/
def Call.bindSurplus (c : Call) (surplus : List Expr) (scope : Scope) : Scope :=
  if c.function.isVariadic then scope.define surplusVariable (.array surplus c.loc) else scope

/-- Starts to run a declared function. -/
def startBody (c : Call) (surplus : List Expr) (scope : Scope) (body : List Expr) : Config :=
  if c.function.isVariadic then
    ⟨.reduceAll c.caller [] surplus, s, .surplus c scope body :: stack⟩
  else ⟨.run scope body, s, .body c :: stack⟩

/-- The value of a call. -/
def enterValue (c : Call) (surplus : List Expr) (scope : Scope) : Config :=
  let a := c.activation scope
  match c.function with
  | .accessor _ => perform s stack .value a.accessor
  | .bit => perform s stack (.reduce scope.root) a.bit
  | .prev => perform s stack .value a.prev
  | .once | .never | .pausing => perform s stack .value a.around
  | .repeated => perform s stack .value a.repeated
  | .constant _ => ⟨.value (a.again []), s, stack⟩
  | .maxOf =>
    if surplus.isEmpty then ⟨.failed (.at? .nothingToCompare c.loc), s, stack⟩
    else ⟨.reduceAll c.caller [] surplus, s, .largest c :: stack⟩
  | .achievement | .leaderboard =>
    ⟨.failed (.at? (.noReturnValue c.function.name) c.loc), s, stack⟩
  | .declared d => startBody s stack c surplus scope d.body

/-- The effect of a call. -/
def enterEffect (c : Call) (surplus : List Expr) (scope : Scope) : Config :=
  let a := c.activation scope
  match c.function with
  | .achievement => perform s stack (fun _ => .finished) a.registerAchievement
  | .leaderboard => perform s stack (fun _ => .finished) a.registerLeaderboard
  | .declared d => startBody s stack c surplus scope d.body
  | _ => enterValue s (.discarding :: stack) c surplus scope

/-- Runs the first of some statements. -/
def startRun (scope : Scope) : List Expr → Config
  | [] => ⟨.ran scope (.ok none), s, stack⟩
  | .ret e _ :: _ => ⟨.reduce scope e, s, .returning scope :: stack⟩
  | .assign x e _ :: rest => ⟨.reduce scope e, s, .assigning scope x rest :: stack⟩
  | .declare name params defaults body loc :: rest =>
    if params.dropLast.contains ellipsis then
      ⟨.ran scope (.error (.at? .ellipsisNotLast loc)), s, stack⟩
    else ⟨.run scope rest, Eval.declare ⟨name, params, defaults, body⟩ s, stack⟩
  | .call name args loc :: rest =>
    ⟨.call .effect scope name args loc, s, .calling scope rest :: stack⟩
  | e :: _ => ⟨.ran scope (.error (.at? .notAStatement e.loc)), s, stack⟩

end Steps

/-- Notes that a function is called. -/
def Call.record (c : Call) (depth : Nat) (s : State) : State :=
  match c.purpose with
  | .value => { s with events := .reducing c.name depth :: s.events }
  | .effect => { s with events := .evaluating c.name depth :: s.events }

/-- What is done with a value. Other frames do not wait for one. -/
def Frame.receive (v : Expr) (s : State) (stack : List Frame) : Frame → Config
  | .left node scope e loc => ⟨.reduce scope e, s, .right node v loc :: stack⟩
  | .right node a loc => ⟨.ofResult .value (node.combine a v loc), s, stack⟩
  | .negation loc => ⟨.value (.not v loc), s, stack⟩
  | .item scope values rest => ⟨.reduceAll scope (values ++ [v]) rest, s, stack⟩
  | .argument c b x rest => ⟨.bind c { b with scope := b.scope.define x v } rest, s, stack⟩
  | .default c es scope x rest => ⟨.fill c es (scope.define x v) rest, s, stack⟩
  | .discarding => ⟨.finished, s, stack⟩
  | .assigning scope x rest => ⟨.run (scope.define x v) rest, s, stack⟩
  | .returning scope => ⟨.ran scope (.ok (some v)), s, stack⟩
  | frame => ⟨.value v, s, frame :: stack⟩

/-- What is done with several values. Other frames do not wait for them. -/
def Frame.receiveAll (vs : List Expr) (s : State) (stack : List Frame) : Frame → Config
  | .listing node loc => ⟨.value (node.node vs loc), s, stack⟩
  | .largest c => ⟨.value (.call c.function.name vs c.loc), s, stack⟩
  | .surplus c scope statements =>
    ⟨.run (scope.define surplusVariable (.array vs c.loc)) statements, s, .body c :: stack⟩
  | frame => ⟨.values vs, s, frame :: stack⟩

/-- What a failure does to a frame: it ends the run of statements, and passes all others by. -/
def Frame.fail (f : Failure) : Frame → Control
  | .assigning scope _ _ | .returning scope | .calling scope _ => .ran scope (.error f)
  | _ => .failed f

/-- One step of the machine. Where there is nothing to be done, nothing changes. -/
def step (limit : Int) : Config → Config
  | ⟨.reduce scope e, s, stack⟩ => startReduce s stack scope e
  | ⟨.reduceAll _ values [], s, stack⟩ => ⟨.values values, s, stack⟩
  | ⟨.reduceAll scope values (e :: rest), s, stack⟩ =>
    ⟨.reduce scope e, s, .item scope values rest :: stack⟩
  | ⟨.call purpose scope name args loc, s, stack⟩ =>
    startCall s stack limit purpose scope name args loc (s.functions.get? name)
  | ⟨.bind c b [], s, stack⟩ => ⟨.fill c b.surplus b.scope c.function.fixed, s, stack⟩
  | ⟨.bind c b (.assign x e loc :: rest), s, stack⟩ => bindNamed s stack c b x e loc rest
  | ⟨.bind c b (e :: rest), s, stack⟩ => bindNext s stack c b e rest
  | ⟨.fill c surplus scope [], s, stack⟩ =>
    ⟨.enter c surplus (c.bindSurplus surplus scope), s, stack⟩
  | ⟨.fill c surplus scope (x :: rest), s, stack⟩ => bindDefault s stack c surplus scope x rest
  | ⟨.enter c surplus scope, s, stack⟩ =>
    match c.purpose with
    | .value => enterValue (c.record scope.depth s) stack c surplus scope
    | .effect => enterEffect (c.record scope.depth s) stack c surplus scope
  | ⟨.run scope body, s, stack⟩ => startRun s stack scope body
  | ⟨.value v, s, frame :: stack⟩ => frame.receive v s stack
  | ⟨.values vs, s, frame :: stack⟩ => frame.receiveAll vs s stack
  | ⟨.finished, s, .calling scope rest :: stack⟩ => ⟨.run scope rest, s, stack⟩
  | ⟨.ran _ result, s, .body c :: stack⟩ => ⟨.ofResult c.returned result, s, stack⟩
  | ⟨.failed f, s, frame :: stack⟩ => ⟨frame.fail f, s, stack⟩
  | c => c

/-- The configuration in which a run of statements starts, in the global scope. -/
def start (statements : List Expr) : Config := ⟨.run {} statements, {}, []⟩

/-- The configuration in which statements have been run, with what they came to. -/
def final (r : Engine.Outcome × State) : Config := ⟨.ran r.1.1 r.1.2, r.2, []⟩

/-- The machine stops in a final configuration. -/
theorem step_final (limit : Int) (r : Engine.Outcome × State) :
    step limit (final r) = final r := rfl

/-- It stops with the value of an expression, or with the failure. -/
theorem step_perform_value (limit : Int) (s : State) (x : Eval Expr) :
    step limit (perform s [] .value x) = perform s [] .value x := by
  unfold perform
  generalize x.run s = r
  obtain ⟨_ | v, s'⟩ := r <;> rfl

/-! ## Scopes -/

/-- The scopes that a frame holds. -/
def Frame.scopes : Frame → List Scope
  | .left _ scope _ _ | .item scope _ _ | .assigning scope _ _ | .returning scope
  | .calling scope _ => [scope]
  | .argument c b _ _ => [c.caller, b.scope]
  | .default c _ scope _ _ | .surplus c scope _ => [c.caller, scope]
  | .largest c | .body c => [c.caller]
  | .right .. | .negation _ | .listing .. | .discarding => []

/-- The scopes that a control holds. -/
def Control.scopes : Control → List Scope
  | .reduce scope _ | .reduceAll scope _ _ | .call _ scope _ _ _ | .run scope _ | .ran scope _ =>
    [scope]
  | .bind c b _ => [c.caller, b.scope]
  | .fill c _ scope _ | .enter c _ scope => [c.caller, scope]
  | .value _ | .values _ | .finished | .failed _ => []

/-- The scopes that there are in a configuration. -/
def Config.scopes (c : Config) : List Scope := c.control.scopes ++ c.stack.flatMap Frame.scopes

/-- The scope is the global one, or that of a function which is no deeper than the limit. -/
def Within (limit : Int) (scope : Scope) : Prop := scope.depth = 0 ∨ (scope.depth : Int) ≤ limit

namespace Within

variable {limit : Int} {scope : Scope}

@[simp] theorem define_iff (x : String) (v : Expr) :
    Within limit (scope.define x v) ↔ Within limit scope := Iff.rfl

@[simp] theorem root : Within limit scope.root := .inl rfl

/-- A call from a scope that is not as deep as the limit makes one that is no deeper. -/
theorem callee (h : ¬ limit ≤ scope.depth) : Within limit scope.callee := by
  right
  rw [Scope.depth_callee, Int.natCast_add, Int.natCast_one]
  omega

@[simp] theorem bindSurplus_iff (c : Call) (surplus : List Expr) :
    Within limit (c.bindSurplus surplus scope) ↔ Within limit scope := by
  unfold Call.bindSurplus
  split <;> rfl

end Within

/-- All scopes of some frames are no deeper than the limit. -/
def StackWithin (limit : Int) (stack : List Frame) : Prop :=
  ∀ frame ∈ stack, ∀ scope ∈ frame.scopes, Within limit scope

/-- All scopes are no deeper than the limit. -/
def Config.Within (limit : Int) (c : Config) : Prop :=
  ∀ scope ∈ c.scopes, Machine.Within limit scope

section Within

variable {limit : Int} {s : State} {stack : List Frame}

@[simp] theorem stackWithin_cons {frame : Frame} : StackWithin limit (frame :: stack) ↔
    (∀ scope ∈ frame.scopes, Within limit scope) ∧ StackWithin limit stack := by
  simp [StackWithin]

@[simp] theorem within_mk {control : Control} : Config.Within limit ⟨control, s, stack⟩ ↔
    (∀ scope ∈ control.scopes, Within limit scope) ∧ StackWithin limit stack := by
  simp only [Config.Within, Config.scopes, List.forall_mem_append, List.forall_mem_flatMap,
    StackWithin]

theorem within_ofResult {α : Type} {next : α → Control}
    (h : ∀ a, ∀ scope ∈ (next a).scopes, Within limit scope) (r : Except Failure α) :
    ∀ scope ∈ (Control.ofResult next r).scopes, Within limit scope := by
  cases r with
  | ok a => exact h a
  | error f => simp [Control.ofResult, Control.scopes]

theorem within_perform {α : Type} {next : α → Control} {x : Eval α}
    (h : ∀ a, ∀ scope ∈ (next a).scopes, Within limit scope) (hstack : StackWithin limit stack) :
    (perform s stack next x).Within limit :=
  within_mk.2 ⟨within_ofResult h _, hstack⟩

theorem within_startReduce {scope : Scope} (hscope : Within limit scope)
    (hstack : StackWithin limit stack) (e : Expr) :
    (startReduce s stack scope e).Within limit := by
  cases e with
  | var x loc =>
    rw [startReduce]
    split <;> simp [Control.scopes, hstack]
  | _ => simp [startReduce, Control.scopes, Frame.scopes, hscope, hstack]

theorem within_startCall {scope : Scope} (hscope : Within limit scope)
    (hstack : StackWithin limit stack) (purpose : Purpose) (name : String) (args : List Expr)
    (loc : Option Loc) (f : Option Function) :
    (startCall s stack limit purpose scope name args loc f).Within limit := by
  cases f with
  | none => simp [startCall, Control.scopes, hstack]
  | some f =>
    simp only [startCall]
    split
    · simp [Control.scopes, hstack]
    next h => simp [Control.scopes, hscope, Within.callee h, hstack]

theorem within_bindNamed {c : Call} {b : Bound} (hcaller : Within limit c.caller)
    (hscope : Within limit b.scope) (hstack : StackWithin limit stack) (x : String) (e : Expr)
    (loc : Option Loc) (rest : List Expr) :
    (bindNamed s stack c b x e loc rest).Within limit := by
  unfold bindNamed
  split
  · simp [Control.scopes, hstack]
  · split <;> simp [Control.scopes, Frame.scopes, hcaller, hscope, hstack]

theorem within_bindNext {c : Call} {b : Bound} (hcaller : Within limit c.caller)
    (hscope : Within limit b.scope) (hstack : StackWithin limit stack) (e : Expr)
    (rest : List Expr) : (bindNext s stack c b e rest).Within limit := by
  unfold bindNext
  split
  · simp [Control.scopes, hstack]
  · split
    · simp [Control.scopes, Frame.scopes, hcaller, hscope, hstack]
    · split <;> simp [Control.scopes, hcaller, hscope, hstack]

theorem within_bindDefault {c : Call} {scope : Scope} (hcaller : Within limit c.caller)
    (hscope : Within limit scope) (hstack : StackWithin limit stack) (surplus : List Expr)
    (x : String) (rest : List String) :
    (bindDefault s stack c surplus scope x rest).Within limit := by
  unfold bindDefault
  split
  · simp [Control.scopes, hcaller, hscope, hstack]
  · split <;> simp [Control.scopes, Frame.scopes, hcaller, hscope, hstack]

theorem within_startBody {c : Call} {scope : Scope} (hcaller : Within limit c.caller)
    (hscope : Within limit scope) (hstack : StackWithin limit stack) (surplus body : List Expr) :
    (startBody s stack c surplus scope body).Within limit := by
  unfold startBody
  split <;> simp [Control.scopes, Frame.scopes, hcaller, hscope, hstack]

theorem within_enterValue {c : Call} {scope : Scope} (hcaller : Within limit c.caller)
    (hscope : Within limit scope) (hstack : StackWithin limit stack) (surplus : List Expr) :
    (enterValue s stack c surplus scope).Within limit := by
  have hvalue : ∀ v : Expr, ∀ scope ∈ (Control.value v).scopes, Within limit scope := by
    simp [Control.scopes]
  unfold enterValue
  split
  next => exact within_perform hvalue hstack
  next => exact within_perform (by simp [Control.scopes]) hstack
  next => exact within_perform hvalue hstack
  next => exact within_perform hvalue hstack
  next => exact within_perform hvalue hstack
  next => exact within_perform hvalue hstack
  next => exact within_perform hvalue hstack
  next => simp [Control.scopes, hstack]
  next => split <;> simp [Control.scopes, Frame.scopes, hcaller, hstack]
  next => simp [Control.scopes, hstack]
  next => simp [Control.scopes, hstack]
  next => exact within_startBody hcaller hscope hstack _ _

theorem within_enterEffect {c : Call} {scope : Scope} (hcaller : Within limit c.caller)
    (hscope : Within limit scope) (hstack : StackWithin limit stack) (surplus : List Expr) :
    (enterEffect s stack c surplus scope).Within limit := by
  unfold enterEffect
  split
  next => exact within_perform (by simp [Control.scopes]) hstack
  next => exact within_perform (by simp [Control.scopes]) hstack
  next => exact within_startBody hcaller hscope hstack _ _
  next => exact within_enterValue hcaller hscope (by simp [Frame.scopes, hstack]) _

theorem within_startRun {scope : Scope} (hscope : Within limit scope)
    (hstack : StackWithin limit stack) (body : List Expr) :
    (startRun s stack scope body).Within limit := by
  unfold startRun
  split
  case h_4 => split <;> simp [Control.scopes, hscope, hstack]
  all_goals simp [Control.scopes, Frame.scopes, hscope, hstack]

theorem within_receive {frame : Frame} (hframe : ∀ scope ∈ frame.scopes, Within limit scope)
    (hstack : StackWithin limit stack) (v : Expr) : (frame.receive v s stack).Within limit := by
  cases frame with
  | right node a loc =>
    exact within_mk.2 ⟨within_ofResult (by simp [Control.scopes]) _, hstack⟩
  | _ => simp_all [Frame.receive, Control.scopes, Frame.scopes]

theorem within_receiveAll {frame : Frame} (hframe : ∀ scope ∈ frame.scopes, Within limit scope)
    (hstack : StackWithin limit stack) (vs : List Expr) :
    (frame.receiveAll vs s stack).Within limit := by
  cases frame with
  | _ => simp_all [Frame.receiveAll, Control.scopes, Frame.scopes]

/-- **One step** keeps all scopes within the limit. -/
theorem within_step {c : Config} (h : c.Within limit) : (step limit c).Within limit := by
  unfold step
  split
  next scope e s stack =>
    obtain ⟨hcontrol, hstack⟩ := within_mk.1 h
    exact within_startReduce (by simpa [Control.scopes] using hcontrol) hstack e
  next => simp_all [Control.scopes]
  next => simp_all [Control.scopes, Frame.scopes]
  next purpose scope name args loc s stack =>
    obtain ⟨hcontrol, hstack⟩ := within_mk.1 h
    exact within_startCall (by simpa [Control.scopes] using hcontrol) hstack purpose name args loc _
  next => simp_all [Control.scopes]
  next c b x e loc rest s stack =>
    obtain ⟨hcontrol, hstack⟩ := within_mk.1 h
    obtain ⟨hcaller, hscope⟩ : _ ∧ _ := by simpa [Control.scopes] using hcontrol
    exact within_bindNamed hcaller hscope hstack x e loc rest
  next c b e rest s stack _ =>
    obtain ⟨hcontrol, hstack⟩ := within_mk.1 h
    obtain ⟨hcaller, hscope⟩ : _ ∧ _ := by simpa [Control.scopes] using hcontrol
    exact within_bindNext hcaller hscope hstack e rest
  next => simp_all [Control.scopes]
  next c surplus scope x rest s stack =>
    obtain ⟨hcontrol, hstack⟩ := within_mk.1 h
    obtain ⟨hcaller, hscope⟩ : _ ∧ _ := by simpa [Control.scopes] using hcontrol
    exact within_bindDefault hcaller hscope hstack surplus x rest
  next c surplus scope s stack =>
    obtain ⟨hcontrol, hstack⟩ := within_mk.1 h
    obtain ⟨hcaller, hscope⟩ : _ ∧ _ := by simpa [Control.scopes] using hcontrol
    split
    · exact within_enterValue hcaller hscope hstack surplus
    · exact within_enterEffect hcaller hscope hstack surplus
  next scope body s stack =>
    obtain ⟨hcontrol, hstack⟩ := within_mk.1 h
    exact within_startRun (by simpa [Control.scopes] using hcontrol) hstack body
  next v s frame stack =>
    obtain ⟨-, hstack⟩ := within_mk.1 h
    obtain ⟨hframe, hstack⟩ := stackWithin_cons.1 hstack
    exact within_receive hframe hstack v
  next vs s frame stack =>
    obtain ⟨-, hstack⟩ := within_mk.1 h
    obtain ⟨hframe, hstack⟩ := stackWithin_cons.1 hstack
    exact within_receiveAll hframe hstack vs
  next => simp_all [Control.scopes, Frame.scopes]
  next scope result s c stack =>
    obtain ⟨-, hstack⟩ := within_mk.1 h
    refine within_mk.2 ⟨within_ofResult (fun v => ?_) result, (stackWithin_cons.1 hstack).2⟩
    unfold Call.returned
    split <;> simp [Control.scopes]
  next f s frame stack =>
    obtain ⟨-, hstack⟩ := within_mk.1 h
    obtain ⟨hframe, hstack⟩ := stackWithin_cons.1 hstack
    refine within_mk.2 ⟨?_, hstack⟩
    cases frame <;> simp_all [Frame.fail, Frame.scopes, Control.scopes]
  next => exact h

/-- **A run** keeps all scopes within the limit. -/
theorem within_iterate_step {c : Config} (h : c.Within limit) (n : Nat) :
    ((step limit)^[n] c).Within limit := by
  induction n with
  | zero => exact h
  | succ n ih =>
    rw [Function.iterate_succ_apply']
    exact within_step ih

theorem within_start (statements : List Expr) : (start statements).Within limit := by
  simp [start, Control.scopes, Within, StackWithin]

end Within

end AchievementLang.Machine

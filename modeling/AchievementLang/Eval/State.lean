import AchievementLang.Achievement
import AchievementLang.Error
import AchievementLang.Function

/-!
# The state of evaluation

What evaluation reads and changes beside variables: the functions that scripts may redefine,
the registry of what has been declared, and a record of what happened. A failure leaves the
state as it was when it arose.
-/

namespace AchievementLang

/-- What a script has declared so far, in order. -/
structure Registry where
  achievements : List Achievement := []
  leaderboards : List Leaderboard := []

/-- What is compiled. -/
inductive Source
  /-- The trigger of an achievement. -/
  | trigger (e : Expr)
  /-- A condition of a leaderboard. -/
  | condition (e : Expr)
  /-- An alternative of a leaderboard's value. -/
  | value (e : Expr)

/-- What can be told about a run afterwards. -/
inductive Event
  /-- A function is called in an expression, at the given depth of calls. -/
  | reducing (function : String) (depth : Nat)
  /-- A function is called as a statement. -/
  | evaluating (function : String) (depth : Nat)
  /-- Compilation starts. It may fail, and then this is the last event. -/
  | compiling (source : Source)
  | condition (e : Expr) (text : String)
  | value (e : Expr) (text : String)
  | registeredAchievement (title : String) (trigger : Wire.Trigger)
  | registeredLeaderboard (title : String) (definition : Wire.Definition)

/-- The state of evaluation. -/
structure State where
  functions : FunctionTable := .initial
  /-- None if nothing can be declared. -/
  registry : Option Registry := some {}
  /-- What happened, the latest first. -/
  events : List Event := []

/-- Evaluation: it may fail, and changes the state either way. -/
abbrev Eval := ExceptT Failure (StateM State)

namespace Eval

/-- Fails for a cause at a place. -/
def fail {α : Type} (cause : Cause) (loc : Option Loc) : Eval α := throw (.at? cause loc)

/-- Notes that something happened. -/
def record (e : Event) : Eval Unit := modify fun s => { s with events := e :: s.events }

/-- The function that a name denotes now. -/
def function? (name : String) : Eval (Option Function) := do
  return (← get).functions.get? name

/-- Makes a name denote a declared function. -/
def declare (d : Declaration) (s : State) : State :=
  { s with functions := s.functions.set d.name (.declared d) }

/-- A result that does not depend on the state. -/
def ofExcept {α : Type} (x : Except Failure α) : Eval α := ExceptT.mk (pure x)

/-- What a compilation gives with the functions there are now. -/
def compiled {α : Type} (compile : FunctionTable → Except Failure α) : Eval α := do
  ofExcept (compile (← get).functions)

/-- Changes the registry. -/
def register (change : Registry → Registry) : Eval Unit := do
  match (← get).registry with
  | none => throw (.breakdown .noRegistry)
  | some registry => modify fun s => { s with registry := some (change registry) }

end Eval

end AchievementLang

import AchievementLang.Eval.Reduce
import AchievementLang.Script

/-!
# Compilation

Compiling a script runs its statements in a fresh global scope and keeps what they declare. A
run gives everything or nothing: what was declared before a failure is dropped.

A `Session` compiles one script after the other. A script that does not parse leaves the
results of the one before in place.
-/

namespace AchievementLang

/-- What a script declares. -/
structure Compilation where
  title : Option String := none
  gameId : Option Int := none
  achievements : List Achievement := []
  leaderboards : List Leaderboard := []
  deriving DecidableEq, Repr

/-- The depth to which calls may nest unless something else is asked for. -/
def defaultCallDepth : Int := 64

namespace Script

/-- The statement is a `return`. -/
def isReturn : Expr → Bool
  | .ret .. => true
  | _ => false

/-- What a script declares, and what happened in the run, the latest first. -/
def compile (limit : Int) (s : Script) : Except Failure Compilation × List Event :=
  match s.statements.find? isReturn with
  | some e => (.error (.at? .topLevelReturn e.loc), [])
  | none =>
    let ((_, result), state) := (({} : Scope).execute limit s.statements).run {}
    let declared := state.registry.getD {}
    (result.map fun _ =>
      { title := s.title, gameId := s.gameId, achievements := declared.achievements,
        leaderboards := declared.leaderboards },
     state.events)

/-- What the script written by a text declares. -/
def compileText (limit : Int) (text : String) : Except Failure Compilation :=
  match parse text with
  | .error f => .error (.fault f)
  | .ok s => (s.compile limit).1

end Script

/-- The results of the last script that was compiled, and why it failed if it did. -/
structure Session where
  result : Compilation := {}
  failure : Option Failure := none

namespace Session

/-- Compiles a script that has been parsed. -/
def evaluate (limit : Int) (s : Script) : Session :=
  match (s.compile limit).1 with
  | .ok result => { result := result }
  | .error f => { result := { title := s.title, gameId := s.gameId }, failure := some f }

/-- Compiles the script written by a text. -/
def run (limit : Int) (session : Session) (text : String) : Session :=
  match Script.parse text with
  | .error f => { session with failure := some (.fault f) }
  | .ok s => evaluate limit s

end Session

end AchievementLang

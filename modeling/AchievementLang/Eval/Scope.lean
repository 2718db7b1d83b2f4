import AchievementLang.Bindings
import AchievementLang.Expr.Basic

/-!
# Scopes

Where variables live. A scope is a frame of its own variables, the frames around it, and the
number of calls that led to it. The body of a function sees its own frame and the globals,
never the variables of whoever called it: `Scope.callee` keeps only the globals of the caller.
-/

namespace AchievementLang

/-- The variables that an expression can see. -/
structure Scope where
  /-- The variables of the scope itself. -/
  frame : Bindings Expr := []
  /-- The frames around it, innermost first; the last one holds the globals. -/
  enclosing : List (Bindings Expr) := []
  /-- The number of calls that led here. -/
  depth : Nat := 0

namespace Scope

/-- The innermost value among frames. -/
def lookup (x : String) : List (Bindings Expr) → Option Expr
  | [] => none
  | frame :: rest => (frame.get? x).or (lookup x rest)

/-- The value of a variable. -/
def get? (s : Scope) (x : String) : Option Expr := lookup x (s.frame :: s.enclosing)

/-- The scope with one of its own variables set. -/
def define (s : Scope) (x : String) (value : Expr) : Scope :=
  { s with frame := s.frame.set x value }

/-- The outermost frame. -/
def globals (s : Scope) : Bindings Expr := s.enclosing.getLast?.getD s.frame

/-- The scope of the globals. -/
def root (s : Scope) : Scope := { frame := s.globals }

/-- The scope of a function called from here, before its parameters are bound. -/
def callee (s : Scope) : Scope := { enclosing := [s.globals], depth := s.depth + 1 }

/-- A new scope inside this one. It counts as one more call, or starts counting anew. -/
def nested (s : Scope) (called : Bool) : Scope :=
  { enclosing := s.frame :: s.enclosing, depth := if called then s.depth + 1 else 0 }

@[simp] theorem globals_define (s : Scope) (x : String) (v : Expr) (h : s.enclosing ≠ []) :
    (s.define x v).globals = s.globals := by
  cases hl : s.enclosing.getLast? with
  | none => exact absurd (List.getLast?_eq_none_iff.1 hl) h
  | some frame => simp [globals, define, hl]

@[simp] theorem globals_callee (s : Scope) : s.callee.globals = s.globals := rfl

@[simp] theorem depth_callee (s : Scope) : s.callee.depth = s.depth + 1 := rfl

@[simp] theorem depth_define (s : Scope) (x : String) (v : Expr) :
    (s.define x v).depth = s.depth := rfl

end Scope

end AchievementLang

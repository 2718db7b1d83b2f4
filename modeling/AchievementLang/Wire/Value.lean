import AchievementLang.Numeric.Shortest
import AchievementLang.Wire.Field

/-!
# Leaderboard values

A value has one alternative or more, of which the runtime reports the largest. Each is a sum
of terms: an operand with a multiplier, or a constant. On the wire alternatives are joined by
`$` and terms by `_`.

Multipliers are exact; one that is not an integer is written as the nearest double-precision
number, so writing fails where there is none.
-/

namespace AchievementLang.Wire

/-- A multiplier as text; `none` if it is no integer and too large for double precision. -/
def numberText? (x : Rat) : Option String :=
  if x.den = 1 then some (toString x.num) else Numeric.nearestText? x

/-- An operand times a multiplier, or a constant if there is no operand. -/
structure Term where
  field : Option Field
  multiplier : Rat := 1
  deriving DecidableEq, Repr

namespace Term

/-- A constant term. -/
def constant (x : Rat) : Term := ⟨none, x⟩

/-- The term on the wire. -/
def wire? (t : Term) : Option String :=
  match t.field with
  | none => (numberText? t.multiplier).map ("v" ++ ·)
  | some f =>
    if t.multiplier = 1 then some f.wire
    else (numberText? t.multiplier).map (f.wire ++ "*" ++ ·)

/-- The term for readers. -/
def display? (t : Term) : Option String :=
  match t.field with
  | none => numberText? t.multiplier
  | some f =>
    if t.multiplier = 1 then some f.display
    else (numberText? t.multiplier).map (f.display ++ " * " ++ ·)

end Term

/-- A sum of terms. -/
abbrev Sum := List Term

/-- The terms on the wire. -/
def Sum.wire? (s : Sum) : Option String := (s.mapM Term.wire?).map ("_".intercalate ·)

/-- Alternatives, of which the largest counts. -/
abbrev Value := List Sum

/-- The value on the wire. -/
def Value.wire? (v : Value) : Option String := (v.mapM Sum.wire?).map ("$".intercalate ·)

end AchievementLang.Wire

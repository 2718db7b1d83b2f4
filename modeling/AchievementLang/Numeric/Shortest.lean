import AchievementLang.Numeric.Binary64

/-!
# Shortest decimals

The fewest decimal digits that read back as a given double-precision number, and the layout
of such digits as text. On the grid of `n` digits only the two neighbours of the number can
qualify: if any point of the grid rounds to the number, one of these does.
-/

namespace AchievementLang.Numeric

/-- A positive decimal: its digits, most significant first, and the power of ten of the
first of them. -/
structure Decimal where
  digits : List Char
  exponent : Int
  deriving DecidableEq, Repr

/-- The decimal `coefficient * 10 ^ unit`, without trailing zeros. -/
def Decimal.ofCoefficient (coefficient : Nat) (unit : Int) : Decimal :=
  let digits := Nat.toDigits 10 coefficient
  { digits := (digits.reverse.dropWhile (· = '0')).reverse
    exponent := unit + digits.length - 1 }

/-- The neighbour on the grid of the given unit that rounds to `b`; of two the nearer, the one
with an even last digit at a tie. -/
def onGrid? (b : Binary64) (unit : Int) : Option Nat :=
  let exact := b.value / scale 10 unit
  let below := exact.floor.toNat
  let reads (n : Nat) : Bool := b.holds ((n : Rat) * scale 10 unit)
  match decide (0 < below) && reads below, reads (below + 1) with
  | true, true => some (roundEven exact)
  | true, false => some below
  | false, true => some (below + 1)
  | false, false => none

/-- Tries grids of `n` digits and more, `left` of them; the last one is fine enough for every
number of the format. -/
def shortestFrom (b : Binary64) (first : Int) (n : Nat) : Nat → Decimal
  | 0 => .ofCoefficient (b.value / scale 10 (first - n + 1)).floor.toNat (first - n + 1)
  | left + 1 =>
    match onGrid? b (first - n + 1) with
    | some coefficient => .ofCoefficient coefficient (first - n + 1)
    | none => shortestFrom b first (n + 1) left

/-- The fewest digits that read back as the number, and of those the nearest. -/
def shortest (b : Binary64) : Decimal := shortestFrom b (floorLog 10 b.value) 1 17

/-- How decimals are laid out as text. -/
structure Layout where
  /-- Exponents from this one on are written positionally, -/
  leastPositional : Int
  /-- up to but not including this one; all others in scientific notation. -/
  topPositional : Int
  /-- What an integer written positionally ends in. -/
  integralTail : String
  /-- The mark before an exponent. -/
  mark : String
  /-- The least number of digits of an exponent. -/
  exponentWidth : Nat

/-- The digits with a point after the first of them. -/
def pointed : List Char → List Char
  | [] => []
  | [d] => [d]
  | d :: rest => d :: '.' :: rest

/-- A positive decimal as text. -/
def Layout.render (l : Layout) (d : Decimal) : String :=
  if l.leastPositional ≤ d.exponent ∧ d.exponent < l.topPositional then
    if d.exponent < 0 then
      String.ofList ('0' :: '.' :: List.replicate (-d.exponent - 1).toNat '0' ++ d.digits)
    else
      let places := d.exponent.toNat + 1
      let whole := d.digits.take places
      let zeros := List.replicate (places - whole.length) '0'
      let fraction := d.digits.drop places
      if fraction.isEmpty then String.ofList (whole ++ zeros) ++ l.integralTail
      else String.ofList (whole ++ '.' :: fraction)
  else
    let size := Nat.toDigits 10 d.exponent.natAbs
    String.ofList (pointed d.digits) ++ l.mark ++ (if d.exponent < 0 then "-" else "+") ++
      String.ofList (List.replicate (l.exponentWidth - size.length) '0' ++ size)

/-- Positional from a ten-thousandth up to ten quadrillions, with a point always; the exponent
has a sign and at least two digits. -/
def plainLayout : Layout where
  leastPositional := -4
  topPositional := 16
  integralTail := ".0"
  mark := "e"
  exponentWidth := 2

/-- The text of the double-precision number nearest to a rational; `none` where there is none
because the rational is too large. -/
def nearestText? (x : Rat) : Option String :=
  let sign := if x < 0 then "-" else ""
  if x = 0 then some "0.0"
  else
    match Binary64.nearest (if x < 0 then -x else x) with
    | .zero => some (sign ++ "0.0")
    | .finite b => some (sign ++ plainLayout.render (shortest b))
    | .overflow => none

end AchievementLang.Numeric

/-!
# Double precision

Positive numbers of the double-precision format, and the one nearest to a positive rational.
A number of the format is `significand * 2 ^ exponent` with a significand below `2 ^ 53`;
the exponent is at least `-1074`, and below `2 ^ 52` the significand only goes with that
least exponent. A tie between two neighbours goes to the even significand.
-/

namespace AchievementLang.Numeric

/-- The power of a base, for exponents of any sign. -/
def scale (base : Nat) (e : Int) : Rat :=
  if 0 ≤ e then ((Nat.pow base e.toNat : Nat) : Rat) else mkRat 1 (Nat.pow base (-e).toNat)

/-- The largest exponent whose power of the base is at most the positive number. -/
def floorLog (base : Nat) (x : Rat) : Int :=
  let top := ((Nat.toDigits base x.num.natAbs).length : Int) - (Nat.toDigits base x.den).length
  if scale base top ≤ x then top else top - 1

/-- The nearest natural number to a number that is not negative, a half going to the even
neighbour. -/
def roundEven (x : Rat) : Nat :=
  let below := x.floor.toNat
  let excess := x - (below : Rat)
  let half := mkRat 1 2
  if excess < half then below
  else if half < excess then below + 1
  else if below % 2 = 0 then below else below + 1

/-- A positive number of the format. -/
structure Binary64 where
  significand : Nat
  exponent : Int
  deriving DecidableEq, Repr

namespace Binary64

/-- Significands stay below this power of two. -/
def significandBits : Nat := 53

/-- The least exponent. -/
def leastExponent : Int := -1074

/-- Numbers of the format are below this power of two. -/
def topExponent : Int := 1024

/-- The number denoted. -/
def value (b : Binary64) : Rat := (b.significand : Rat) * scale 2 b.exponent

/-- What a positive rational rounds to. -/
inductive Rounded
  /-- It is too small: less than half the least number of the format, or just half. -/
  | zero
  /-- It rounds to a number of the format. -/
  | finite (b : Binary64)
  /-- It is too large. -/
  | overflow
  deriving DecidableEq, Repr

/-- The number of the format nearest to a positive rational. -/
def nearest (x : Rat) : Rounded :=
  let exponent := max (floorLog 2 x - (significandBits - 1)) leastExponent
  let significand := roundEven (x / scale 2 exponent)
  let b : Binary64 :=
    if significand = Nat.pow 2 significandBits then
      ⟨Nat.pow 2 (significandBits - 1), exponent + 1⟩
    else ⟨significand, exponent⟩
  if b.significand = 0 then .zero
  else if scale 2 topExponent ≤ b.value then .overflow
  else .finite b

/-- Decimals from this power of ten on are too large for the format. -/
def topDecade : Int := 310

/-- Decimals below this power of ten round to zero. -/
def leastDecade : Int := -330

/-- What the decimal `coefficient * 10 ^ exponent` rounds to. Exponents far outside of the
format decide without any computation. -/
def ofDecimal (coefficient : Nat) (exponent : Int) : Rounded :=
  let size : Int := (Nat.toDigits 10 coefficient).length
  if coefficient = 0 then .zero
  else if topDecade < exponent + size - 1 then .overflow
  else if exponent + size < leastDecade then .zero
  else nearest ((coefficient : Rat) * scale 10 exponent)

/-- Half way to the number above. -/
def upperHalf (b : Binary64) : Rat :=
  ((2 * b.significand + 1 : Nat) : Rat) * scale 2 (b.exponent - 1)

/-- Half way to the number below, which is nearer at a power of two. -/
def lowerHalf (b : Binary64) : Rat :=
  if b.significand = Nat.pow 2 (significandBits - 1) ∧ leastExponent < b.exponent then
    ((4 * b.significand - 1 : Nat) : Rat) * scale 2 (b.exponent - 2)
  else ((2 * b.significand - 1 : Nat) : Rat) * scale 2 (b.exponent - 1)

/-- The rational lies in the interval that rounds to the number; the ends belong to it when
the significand is even. -/
def holds (b : Binary64) (x : Rat) : Bool :=
  if b.significand % 2 = 0 then b.lowerHalf ≤ x && x ≤ b.upperHalf
  else b.lowerHalf < x && x < b.upperHalf

end Binary64

end AchievementLang.Numeric

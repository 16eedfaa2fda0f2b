import RulesAssist.Decimal.Binary64

/-! The shortest decimal that reads back as a given binary number.

A grid of decimals is tried for one significant digit, then for two, and so on. The first grid with
a point among the reals that round to the number has the answer, and one of the two grid points
next to the number is such a point if any is.
-/

set_option autoImplicit false

namespace RulesAssist.Decimal

/-- Decimal digits `d₁ d₂ …`, standing for `d₁.d₂… * 10 ^ exponent`. -/
structure Digits where
  digits : List Char
  exponent : Int
  deriving DecidableEq, Repr

def decimalLength (value : Nat) : Nat :=
  (Nat.toDigits 10 value).length

def firstPower (ratio : Ratio) : Int :=
  if ratio.denominator ≤ ratio.numerator then
    (decimalLength (ratio.numerator / ratio.denominator) : Int) - 1
  else
    -(decimalLength ((ratio.denominator - 1) / ratio.numerator) : Int)

/-- The reals that round to a number, as multiples of a quarter of its last place. -/
structure Rounding where
  low : Nat
  high : Nat
  closed : Bool

/-- The interval reaches halfway to each neighbour; below a power of two the neighbour is nearer. -/
def roundingOf (number : Binary64) : Rounding :=
  let half := if number.mantissa = 1 <<< 52 ∧ leastExponent < number.exponent then 1 else 2
  { low := 4 * number.mantissa - half
    high := 4 * number.mantissa + 2
    closed := number.mantissa % 2 == 0 }

def hits (number : Binary64) (power : Int) (point : Nat) : Bool :=
  let rounding := roundingOf number
  -- Both sides in quarters of the number's last place.
  let ratio := (Ratio.scale ⟨point, 1⟩ 10 power).scale 2 (2 - number.exponent)
  let low := rounding.low * ratio.denominator
  let high := rounding.high * ratio.denominator
  if rounding.closed then low ≤ ratio.numerator && ratio.numerator ≤ high
  else low < ratio.numerator && ratio.numerator < high

/-- The grid point of this many digits that rounds to the number: the nearer one, if both do. -/
def pointWith? (number : Binary64) (count : Nat) : Option (Nat × Int) :=
  let power := firstPower number.magnitude - (count : Int) + 1
  let scaled := number.magnitude.scale 10 (-power)
  let below := scaled.numerator / scaled.denominator
  let near := scaled.nearest
  let far := if near = below then below + 1 else below
  if hits number power near then some (near, power)
  else if hits number power far then some (far, power)
  else none

/-- Seventeen digits always suffice. -/
def shortestPoint (number : Binary64) : Nat × Int :=
  ((List.range' 1 17).findSome? (pointWith? number)).getD (number.mantissa, number.exponent)

def shortest (number : Binary64) : Digits :=
  let (point, power) := shortestPoint number
  let digits := Nat.toDigits 10 point
  let trimmed := (digits.reverse.dropWhile (· == '0')).reverse
  { digits := trimmed, exponent := power + (digits.length : Int) - 1 }

end RulesAssist.Decimal

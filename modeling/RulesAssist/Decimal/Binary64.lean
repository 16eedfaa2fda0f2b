/-! Finite binary floating-point numbers of 64 bits, with rounding in exact integer arithmetic. -/

set_option autoImplicit false

namespace RulesAssist.Decimal

/-- The number `mantissa * 2 ^ exponent`, negated if so marked; a zero keeps its sign. -/
structure Binary64 where
  negative : Bool
  mantissa : Nat
  exponent : Int
  deriving DecidableEq, Repr

/-- The least exponent: what lies below it is subnormal. -/
def leastExponent : Int := -1074

def greatestExponent : Int := 971

structure Ratio where
  numerator : Nat
  denominator : Nat
  deriving DecidableEq, Repr

def Ratio.scale (ratio : Ratio) (base : Nat) (power : Int) : Ratio :=
  { numerator := ratio.numerator * base.pow power.toNat
    denominator := ratio.denominator * base.pow (-power).toNat }

/-- The nearest integer; a half goes to the even neighbour. -/
def Ratio.nearest (ratio : Ratio) : Nat :=
  let below := ratio.numerator / ratio.denominator
  let twice := 2 * (ratio.numerator % ratio.denominator)
  if twice < ratio.denominator then below
  else if ratio.denominator < twice then below + 1
  else below + below % 2

namespace Binary64

def magnitude (number : Binary64) : Ratio :=
  Ratio.scale ⟨number.mantissa, 1⟩ 2 number.exponent

/-- The exponent at which the fraction has a mantissa of 53 bits, or the least one. -/
def exponentOf (ratio : Ratio) : Int :=
  let guess : Int := (ratio.numerator.log2 : Int) - ratio.denominator.log2 - 52
  let scaled := ratio.scale 2 (-guess)
  let exact := if scaled.numerator < (1 <<< 52) * scaled.denominator then guess - 1 else guess
  max leastExponent exact

def ofRatio? (negative : Bool) (ratio : Ratio) : Option Binary64 :=
  if ratio.numerator = 0 then some ⟨negative, 0, leastExponent⟩
  else
    let exponent := exponentOf ratio
    let mantissa := (ratio.scale 2 (-exponent)).nearest
    let carried : Binary64 :=
      if mantissa = 1 <<< 53 then ⟨negative, 1 <<< 52, exponent + 1⟩
      else ⟨negative, mantissa, exponent⟩
    if greatestExponent < carried.exponent then none else some carried

def mul? (left right : Binary64) : Option Binary64 :=
  let first := left.magnitude
  let second := right.magnitude
  ofRatio? left.negative
    ⟨first.numerator * second.numerator, first.denominator * second.denominator⟩

def div? (left right : Binary64) : Option Binary64 :=
  let first := left.magnitude
  let second := right.magnitude
  ofRatio? left.negative
    ⟨first.numerator * second.denominator, first.denominator * second.numerator⟩

def ofNat? (negative : Bool) (value : Nat) : Option Binary64 :=
  ofRatio? negative ⟨value, 1⟩

def greatestTen : Nat := 308

def tenTo? (power : Nat) : Option Binary64 :=
  ofNat? false (Nat.pow 10 power)

def shrink? : Nat → Binary64 → Option Binary64
  | 0, number => some number
  | rounds + 1, number =>
    if number.mantissa = 0 then some number
    else ((tenTo? greatestTen).bind number.div?).bind (shrink? rounds)

/-- Multiply by ten to the power, or divide by it, rounding at each step.

A power out of range is reached by way of the largest one, so that a result below the normal
numbers may be rounded more than once. -/
def scaleTen? (number : Binary64) (power : Int) : Option Binary64 :=
  let rounds := (power.natAbs - 1) / greatestTen
  let left := power.natAbs - rounds * greatestTen
  if 0 ≤ power then
    if rounds = 0 then (tenTo? left).bind number.mul?
    else if number.mantissa = 0 then some number
    else none
  else do
    let smaller ← shrink? rounds number
    (tenTo? left).bind smaller.div?

end Binary64

end RulesAssist.Decimal

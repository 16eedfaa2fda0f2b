import RulesAssist.Decimal.Shortest
import RulesAssist.Json.Token

/-! Numbers of JSON values.

A literal without point and exponent stays an integer if 64 bits hold it, with or without a sign.
Every other literal, and `-0`, becomes a binary floating-point number. It is read from as many
leading digits as 64 bits hold, and refused if it is too large.
-/

set_option autoImplicit false

namespace RulesAssist.Json

open RulesAssist.Decimal

inductive Number where
  | integer (value : Int)
  | double (value : Binary64)
  deriving DecidableEq, Repr

def unsignedLimit : Nat := 1 <<< 64

def signedLimit : Nat := 1 <<< 63

namespace Literal

/-- Take digits while the value fits in 64 bits; the rest is what was not taken. -/
def takeDigits (value : Nat) : List Nat → Nat × List Nat
  | [] => (value, [])
  | digit :: rest =>
    if 10 * value + digit < unsignedLimit then takeDigits (10 * value + digit) rest
    else (value, digit :: rest)

/-- The leading digits as one integer, and the power of ten that puts the point where it was. -/
def significand (literal : Literal) : Nat × Int :=
  let (value, dropped) := takeDigits 0 literal.whole
  let fraction := literal.fraction.getD []
  let (value, unread) := takeDigits value fraction
  (value, (dropped.length : Int) - ((fraction.length - unread.length : Nat) : Int))

def double? (literal : Literal) : Option Binary64 := do
  let (value, power) := literal.significand
  let unscaled ← Binary64.ofNat? literal.negative value
  unscaled.scaleTen? (power + literal.exponent.getD 0)

def isIntegral (literal : Literal) : Bool :=
  literal.fraction.isNone && literal.exponent.isNone

def integer? (literal : Literal) : Option Int :=
  let value := ofDigits literal.whole
  if !literal.isIntegral then none
  else if literal.negative then
    if 0 < value ∧ value ≤ signedLimit then some (-(value : Int)) else none
  else if value < unsignedLimit then some value
  else none

def number? (literal : Literal) : Option Number :=
  match literal.integer? with
  | some value => some (.integer value)
  | none => literal.double?.map .double

def unsigned? (literal : Literal) : Option Nat := do
  let value ← literal.integer?
  if 0 ≤ value then some value.toNat else none

def signed? (literal : Literal) : Option Int := do
  let value ← literal.integer?
  if value < signedLimit then some value else none

end Literal

namespace Number

/-- The least and the greatest exponent that is written without an exponent mark. -/
def plainExponents : Int × Int := (-5, 15)

/-- Digits with a point among them, and with at least one digit on each side of it. -/
def plainDigits (digits : Digits) : List Char :=
  if digits.exponent < 0 then
    "0.".toList ++ List.replicate (-digits.exponent - 1).toNat '0' ++ digits.digits
  else
    let count := digits.exponent.toNat + 1
    let whole := digits.digits.take count
    let fraction := digits.digits.drop count
    whole ++ List.replicate (count - whole.length) '0' ++
      '.' :: (if fraction.isEmpty then ['0'] else fraction)

def scientificDigits (digits : Digits) : List Char :=
  let fraction := digits.digits.drop 1
  digits.digits.take 1 ++ (if fraction.isEmpty then [] else '.' :: fraction) ++
    'e' :: (if digits.exponent < 0 then '-' else '+') :: Nat.toDigits 10 digits.exponent.natAbs

def doubleText (number : Binary64) : List Char :=
  let sign := if number.negative then ['-'] else []
  if number.mantissa = 0 then sign ++ "0.0".toList
  else
    let digits := shortest number
    sign ++
      if plainExponents.1 ≤ digits.exponent ∧ digits.exponent ≤ plainExponents.2 then
        plainDigits digits
      else
        scientificDigits digits

def text : Number → String
  | .integer value => toString value
  | .double value => String.ofList (doubleText value)

end Number

end RulesAssist.Json

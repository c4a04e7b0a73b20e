/-
# Binary floating-point numbers

A binary format has finitely many numbers of each sign. They are counted here
from zero upwards, infinity being the last: the count of a number is its
*magnitude*. Magnitudes have the order of the numbers, and in the usual
interchange formats the magnitude is the number's encoding without its sign.

A decimal is rounded to the nearest number of a format, a tie to the even
magnitude, in exact arithmetic on natural numbers.
-/

import LayeredIni.Number.Numeral

namespace LayeredIni.Number

/-- A binary format: its numbers have `fractionBits` bits after the leading one
and an exponent of `exponentBits` bits. -/
structure Format where
  /-- The number of bits after the leading bit of a significand. -/
  fractionBits : Nat
  /-- The number of bits of an exponent. -/
  exponentBits : Nat
deriving DecidableEq, Repr

namespace Format

/-- Single precision. -/
def single : Format :=
  ⟨23, 8⟩

/-- Double precision. -/
def double : Format :=
  ⟨52, 11⟩

/-- The number of bits in the encoding of a number with its sign. -/
def width (format : Format) : Nat :=
  1 + format.exponentBits + format.fractionBits

/-- The magnitude of infinity. -/
def infinity (format : Format) : Nat :=
  (powerOfTwo format.exponentBits - 1) * powerOfTwo format.fractionBits

/-- The exponent of the least positive number, which is a power of two. -/
def leastExponent (format : Format) : Int :=
  2 - (powerOfTwo (format.exponentBits - 1) : Int) - format.fractionBits

end Format

/-- The quotient rounded to the nearest natural number, a tie to the even one. -/
def roundedQuotient (dividend divisor : Nat) : Nat :=
  let quotient := dividend / divisor
  match compare (2 * (dividend % divisor)) divisor with
  | .lt => quotient
  | .eq => quotient + quotient % 2
  | .gt => quotient + 1

/-- The quotient `dividend / (divisor · 2 ^ exponent)` rounded to the nearest
natural number. -/
def roundedScaled (dividend divisor : Nat) : Int → Nat
  | .ofNat exponent => roundedQuotient dividend (divisor * powerOfTwo exponent)
  | .negSucc exponent => roundedQuotient (dividend * powerOfTwo (exponent + 1)) divisor

/-- Whether `dividend / divisor` is at least `2 ^ exponent`. -/
def atLeastPower (dividend divisor : Nat) : Int → Bool
  | .ofNat exponent => divisor * powerOfTwo exponent ≤ dividend
  | .negSucc exponent => divisor ≤ dividend * powerOfTwo (exponent + 1)

/-- The exponent of the greatest power of two that is at most
`dividend / divisor`, for positive numbers. -/
def binaryExponent (dividend divisor : Nat) : Int :=
  let estimate : Int := dividend.log2 - divisor.log2
  if atLeastPower dividend divisor estimate then estimate else estimate - 1

/-- The magnitude of the number nearest to `dividend / divisor`, for positive
numbers. The significand is counted in units of a power of two that leaves it
the format's bits, but no unit is smaller than the least positive number; each
further unit begins a new block of magnitudes. -/
def roundedRatio (format : Format) (dividend divisor : Nat) : Nat :=
  let unit := max (binaryExponent dividend divisor - format.fractionBits) format.leastExponent
  let block := (unit - format.leastExponent).toNat
  min (block * powerOfTwo format.fractionBits + roundedScaled dividend divisor unit)
    format.infinity

/-- The magnitude of the number nearest to `coefficient · 10 ^ exponent`.
Exponents so large or so small that the result is infinity or zero whatever
the coefficient are settled without computing the power. -/
def roundedDecimal (format : Format) (coefficient : Nat) (exponent : Int) : Nat :=
  let limit : Int := powerOfTwo format.exponentBits + format.fractionBits
  if coefficient = 0 then 0
  else if exponent > limit then format.infinity
  else if exponent + coefficient.log2 + limit < 0 then 0
  else
    match exponent with
    | .ofNat power => roundedRatio format (coefficient * Nat.pow 10 power) 1
    | .negSucc power => roundedRatio format coefficient (Nat.pow 10 (power + 1))

/-- A number of a binary format, or none. -/
inductive Binary
  /-- No number. -/
  | nan
  /-- The number of a given sign and magnitude. -/
  | number (negative : Bool) (magnitude : Nat)
deriving DecidableEq, Repr

/-- The number of a format nearest to what a numeral denotes. -/
def Numeral.toBinary (format : Format) : Numeral → Binary
  | nan => .nan
  | infinity negative => .number negative format.infinity
  | decimal negative coefficient exponent =>
    .number negative (roundedDecimal format coefficient exponent)

namespace Binary

/-- The number of a format that a text denotes. -/
def parse? (format : Format) (text : List Char) : Option Binary :=
  (Numeral.parse? text).map (Numeral.toBinary format)

/-- The position of a number among all numbers; the two zeros share one. -/
def position (negative : Bool) (magnitude : Nat) : Int :=
  if negative then -(magnitude : Int) else magnitude

/-- How two numbers compare; what is no number compares with nothing. -/
def compare? : Binary → Binary → Option Ordering
  | number s m, number t n => some (compare (position s m) (position t n))
  | _, _ => none

/-- The encoding of a number as an unsigned integer, the sign in the top bit. -/
def encoding? (format : Format) : Binary → Option Nat
  | nan => none
  | number negative magnitude =>
    some ((if negative then powerOfTwo (format.width - 1) else 0) + magnitude)

end Binary

end LayeredIni.Number

/-
# Numerals

A numeral is the text of a number with a fraction and an exponent, both
optional, or one of the words for infinity and for no number. Numerals are
read exactly: the number that a numeral denotes is a decimal of any length.
-/

import LayeredIni.Number.Integer
import LayeredIni.Text.Basic

namespace LayeredIni.Number

open LayeredIni.Text

/-- What a numeral denotes. -/
inductive Numeral
  /-- No number. -/
  | nan
  /-- An infinity. -/
  | infinity (negative : Bool)
  /-- The number `± coefficient · 10 ^ exponent`. -/
  | decimal (negative : Bool) (coefficient : Nat) (exponent : Int)
deriving DecidableEq, Repr

/-- Splits off a sign: whether there is a minus sign, and the text after it. -/
def readSign : List Char → Bool × List Char
  | '-' :: rest => (true, rest)
  | '+' :: rest => (false, rest)
  | rest => (false, rest)

/-- Splits off a fraction: the digits after a point, and the text after them. -/
def readFraction : List Char → List Char × List Char
  | '.' :: rest => rest.span Char.isDigit
  | rest => ([], rest)

/-- The exponent that the rest of a numeral states, zero if there is no rest. -/
def readExponent : List Char → Option Int
  | [] => some 0
  | c :: rest =>
    if c == 'e' || c == 'E' then
      let (negative, digits) := readSign rest
      (natural? digits).map fun n => if negative then -Int.ofNat n else Int.ofNat n
    else none

/-- The coefficient and exponent of an unsigned decimal. There must be a digit
before or after the point. -/
def readDecimal (text : List Char) : Option (Nat × Int) :=
  let (whole, rest) := text.span Char.isDigit
  let (fraction, rest) := readFraction rest
  match natural? (whole ++ fraction), readExponent rest with
  | some coefficient, some exponent => some (coefficient, exponent - fraction.length)
  | _, _ => none

/-- Reads a text that is a numeral from end to end. -/
def Numeral.parse? (text : List Char) : Option Numeral :=
  let (negative, rest) := readSign text
  if isOneOf ["nan"] rest then some .nan
  else if isOneOf ["inf", "infinity"] rest then some (.infinity negative)
  else
    (readDecimal rest).map fun (coefficient, exponent) => .decimal negative coefficient exponent

end LayeredIni.Number

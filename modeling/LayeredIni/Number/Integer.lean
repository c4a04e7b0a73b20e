/-
# Integers in configuration texts

Integers are written in ASCII digits after an optional sign and are accepted
when they lie in the range of their type, however many digits they have.
-/

namespace LayeredIni.Number

/-- The number that a list of ASCII digits denotes, none if there is no digit
or something other than a digit. -/
def natural? (text : List Char) : Option Nat :=
  if text.isEmpty || !text.all Char.isDigit then none
  else some (text.foldl (fun n c => 10 * n + (c.toNat - '0'.toNat)) 0)

/-- Two to the power of a number. -/
def powerOfTwo (exponent : Nat) : Nat :=
  Nat.pow 2 exponent

/-- An integer type of fixed width. -/
structure IntegerType where
  /-- Whether the type has negative numbers. -/
  signed : Bool
  /-- The number of bits. -/
  width : Nat
deriving DecidableEq, Repr

namespace IntegerType

/-- The least number of the type. -/
def least (type : IntegerType) : Int :=
  if type.signed then -(powerOfTwo (type.width - 1) : Int) else 0

/-- The greatest number of the type. -/
def greatest (type : IntegerType) : Int :=
  if type.signed then (powerOfTwo (type.width - 1) : Int) - 1 else (powerOfTwo type.width : Int) - 1

/-- The integer that a text denotes regardless of range. A plus sign is always
allowed, a minus sign only where there are negative numbers. -/
def unbounded? (type : IntegerType) : List Char → Option Int
  | '+' :: digits => (natural? digits).map Int.ofNat
  | '-' :: digits => if type.signed then (natural? digits).map fun n => -Int.ofNat n else none
  | digits => (natural? digits).map Int.ofNat

/-- The number of the type that a text denotes. -/
def parse? (type : IntegerType) (text : List Char) : Option Int :=
  (unbounded? type text).filter fun n => type.least ≤ n && n ≤ type.greatest

/-- The name of the type: a letter for the sign and the width. -/
def name (type : IntegerType) : String :=
  (if type.signed then "i" else "u") ++ toString type.width

end IntegerType

end LayeredIni.Number

/-!
# Floating-point numbers of 32 bits

A number is given by its bits alone: one sign bit, eight exponent bits and 23
fraction bits. Nothing here computes with floating-point arithmetic, so every
statement about a number is a statement about natural numbers.
-/

namespace PixelBlocks

/-- A floating-point number of 32 bits, identified by its bits. Two different
    NaN payloads are two different numbers. -/
structure Single where
  bits : UInt32
  deriving DecidableEq, Repr, Inhabited

namespace Single

/-- Whether the sign bit is set. Negative zero and negative NaN count. -/
def negative (number : Single) : Bool :=
  number.bits >>> 31 == 1

/-- The biased exponent, between 0 and 255. -/
def exponentField (number : Single) : Nat :=
  ((number.bits >>> 23) &&& 0xff).toNat

/-- The fraction bits below the implicit leading bit. -/
def fraction (number : Single) : Nat :=
  (number.bits &&& 0x7fffff).toNat

/-- Neither an infinity nor a NaN. -/
def isFinite (number : Single) : Bool :=
  number.exponentField != 255

/-- An exponent of all ones with a non-zero fraction. -/
def isNaN (number : Single) : Bool :=
  number.exponentField == 255 && number.fraction != 0

/-- Either of the two zeroes. -/
def isZero (number : Single) : Bool :=
  number.bits &&& 0x7fffffff == 0

/-- The integer significand of a finite number: its magnitude is
    `significand * 2 ^ scale`. -/
def significand (number : Single) : Nat :=
  if number.exponentField = 0 then number.fraction else number.fraction + 0x800000

/-- The power of two that scales the significand of a finite number. -/
def scale (number : Single) : Int :=
  (max number.exponentField 1 : Nat) - 150

/-- At least zero in the numeric order, in which negative zero equals zero and
    a NaN is not ordered. -/
def isNonnegative (number : Single) : Bool :=
  !number.isNaN && (!number.negative || number.isZero)

end Single

end PixelBlocks

/-!
# Floor division of signed words

Rows of a window may have negative numbers, and vertical subsampling needs their
remainder to be non-negative. The quotient is computed from quotients towards
zero, with all intermediate results in 32-bit words.
-/

namespace PixelBlocks

/-- The quotient rounded towards negative infinity for a positive divisor, as
    long as no intermediate word wraps. -/
def floorQuotient (dividend divisor : Int32) : Int32 :=
  if 0 ≤ dividend then
    if 0 ≤ divisor then dividend / divisor
    else -(dividend / -divisor)
  else
    if 0 ≤ divisor then -((divisor - 1 - dividend) / divisor)
    else (-divisor - 1 - dividend) / -divisor

/-- What `floorQuotient` leaves over. -/
def floorRemainder (dividend divisor : Int32) : Int32 :=
  dividend - divisor * floorQuotient dividend divisor

-- Five rows above zero there is one row left over of two.
example : floorRemainder (-5) 2 = 1 ∧ floorQuotient (-5) 2 = -3 := by decide

end PixelBlocks

/-!
# Floats of 24 bits

A float of 32 bits is rounded to its 24 leading bits, half upwards in magnitude.
Rounding never turns a finite number into an infinity or a NaN into one. Shifting
the result left by eight bits gives a float of 32 bits again.
-/

namespace PixelBlocks.Rounding

/-- The 24 leading bits of the rounded float. -/
def to24 (bits : UInt32) : UInt32 :=
  let sign := bits &&& 0x80000000
  let exponent := bits &&& 0x7f800000
  let fraction := bits &&& 0x007fffff
  let magnitude :=
    if exponent = 0x7f800000 then
      if fraction = 0 then exponent >>> 8
      else
        let payload := fraction >>> 8
        (exponent >>> 8) ||| payload ||| (if payload = 0 then 1 else 0)
    else
      let rounded := ((exponent ||| fraction) + (fraction &&& 0x80)) >>> 8
      if 0x7f8000 ≤ rounded then (exponent ||| fraction) >>> 8 else rounded
  (sign >>> 8) ||| magnitude

/-- The float of 32 bits with the given 24 leading bits. -/
def from24 (bits : UInt32) : UInt32 := bits <<< 8

-- The largest finite float is cut, because rounding would overflow.
example : from24 (to24 0x7f7fffff) = 0x7f7fff00 := by decide

-- A NaN whose leading payload bits are zero stays a NaN.
example : to24 0x7f800001 = 0x7f8001 := by decide

end PixelBlocks.Rounding

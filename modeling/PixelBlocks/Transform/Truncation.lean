import PixelBlocks.Scalar

/-!
# Truncation of floats

Normal floats of 32 bits keep sign, exponent and the 16 leading fraction bits.
Zeroes, subnormal numbers, infinities and NaNs keep all bits, as do bytes at the
end that do not fill a float.
-/

namespace PixelBlocks.Truncation

/-- Whether the exponent is neither all zeroes nor all ones. -/
def isNormal (bits : UInt32) : Bool :=
  let exponent := bits &&& 0x7f800000
  exponent != 0 && exponent != 0x7f800000

/-- Clears the seven lowest fraction bits of a normal float. -/
def truncateBits (bits : UInt32) : UInt32 :=
  if isNormal bits then bits &&& 0xffffff80 else bits

/-- Truncates each group of four bytes. -/
def truncate : Bytes → Bytes
  | first :: second :: third :: fourth :: rest =>
    let bits := Scalar.single.decode [first, second, third, fourth]
    Scalar.single.encode (truncateBits bits) ++ truncate rest
  | short => short

-- A normal float loses its lowest bits, a NaN does not.
example :
    truncate [0xff, 0, 0x80, 0x3f, 1, 0, 0xc0, 0x7f, 9]
      = [0x80, 0, 0x80, 0x3f, 1, 0, 0xc0, 0x7f, 9] := by
  decide

end PixelBlocks.Truncation

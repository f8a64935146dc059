/-!
# Checksum of zlib streams

The checksum joins two sums modulo 65521: one of the bytes, starting at one, and
one of all values that the first sum takes.
-/

namespace PixelBlocks.Zlib

/-- The modulus of both sums, the largest prime below `2 ^ 16`. -/
def checksumModulus : Nat := 65521

/-- Adds one byte to both sums. -/
def checksumStep (sums : Nat × Nat) (byte : UInt8) : Nat × Nat :=
  let low := (sums.1 + byte.toNat) % checksumModulus
  (low, (sums.2 + low) % checksumModulus)

/-- The checksum of a byte string. -/
def checksum (bytes : ByteArray) : Nat :=
  let sums := bytes.foldl checksumStep (1, 0)
  sums.2 * 65536 + sums.1

end PixelBlocks.Zlib

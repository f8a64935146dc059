import PixelBlocks.Bits.Source

/-!
# Reading bits backwards

Some bit strings are read from their last bit down to their first. The highest set
bit of the last byte only marks the end. A field of several bits has its highest
bit first. Behind the first bit of the string follow zero bits without end, and the
number of bits left becomes negative; readers check that it is zero in the end.
-/

namespace PixelBlocks

/-- Bytes and the number of bits that are left to read. -/
structure BackwardBits where
  bytes : ByteArray
  left : Int

namespace BackwardBits

/-- The bits of a non-empty byte string whose last byte marks the end. -/
def ofBytes? (bytes : ByteArray) : Option BackwardBits :=
  let last := byteAt bytes (bytes.size - 1)
  if bytes.size = 0 ∨ last = 0 then none
  else some ⟨bytes, 8 * (bytes.size - 1) + Nat.log2 last.toNat⟩

/-- Eight bytes from an index on as one number, lowest byte first. -/
def wordAt (bytes : ByteArray) (index : Nat) : UInt64 :=
  (byteAt bytes index).toUInt64
    ||| ((byteAt bytes (index + 1)).toUInt64 <<< 8)
    ||| ((byteAt bytes (index + 2)).toUInt64 <<< 16)
    ||| ((byteAt bytes (index + 3)).toUInt64 <<< 24)
    ||| ((byteAt bytes (index + 4)).toUInt64 <<< 32)
    ||| ((byteAt bytes (index + 5)).toUInt64 <<< 40)
    ||| ((byteAt bytes (index + 6)).toUInt64 <<< 48)
    ||| ((byteAt bytes (index + 7)).toUInt64 <<< 56)

/-- The number made of `width` bits from a bit on, for widths up to 56. -/
def bitsAt (bytes : ByteArray) (start width : Nat) : Nat :=
  let word := wordAt bytes (start / 8) >>> (start % 8).toUInt64
  (word &&& ((1 <<< width.toUInt64) - 1)).toNat

/-- The next field without reading it. Missing bits are zero. -/
def peek (bits : BackwardBits) (width : Nat) : Nat :=
  let start := bits.left - width
  if 0 ≤ start then bitsAt bits.bytes start.toNat width
  else (bitsAt bits.bytes 0 bits.left.toNat) <<< (width - bits.left.toNat)

/-- The bits behind the next field. -/
def skip (bits : BackwardBits) (width : Nat) : BackwardBits :=
  { bits with left := bits.left - width }

/-- Reads a field. -/
def field (bits : BackwardBits) (width : Nat) : Nat × BackwardBits :=
  (bits.peek width, bits.skip width)

end BackwardBits

end PixelBlocks

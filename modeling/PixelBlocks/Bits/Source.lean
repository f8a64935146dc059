/-!
# Reading bits

Bits are read from the lowest bit of the first byte upwards. A field of several
bits has its lowest bit first. Reading past the last byte is refused.
-/

namespace PixelBlocks

/-- The byte at an index, or zero behind the end. -/
def byteAt (bytes : ByteArray) (index : Nat) : UInt8 :=
  if inside : index < bytes.size then bytes[index] else 0

/-- Bytes together with the number of bits that were read. -/
structure BitSource where
  bytes : ByteArray
  position : Nat

namespace BitSource

/-- How many bits are left to read. -/
def remaining (source : BitSource) : Nat :=
  8 * source.bytes.size - source.position

/-- Reads one bit. -/
def bit? (source : BitSource) : Option (Nat × BitSource) :=
  let index := source.position / 8
  if inside : index < source.bytes.size then
    let place := (source.position % 8).toUInt8
    some (((source.bytes[index] >>> place) &&& 1).toNat,
      { source with position := source.position + 1 })
  else none

/-- Reads a field of the given width. -/
def field? : (width : Nat) → BitSource → Option (Nat × BitSource)
  | 0, source => some (0, source)
  | width + 1, source => do
    let (low, source) ← source.bit?
    let (high, source) ← field? width source
    return (low + 2 * high, source)

/-- Skips to the next whole byte. -/
def align (source : BitSource) : BitSource :=
  { source with position := (source.position + 7) / 8 * 8 }

/-- The index of the byte that is read next, for aligned sources. -/
def byteIndex (source : BitSource) : Nat := source.position / 8

/-- The same bytes, read from a byte on. -/
def atByte (source : BitSource) (index : Nat) : BitSource :=
  { source with position := 8 * index }

/-- Reads whole bytes from an aligned source. -/
def bytes? (count : Nat) (source : BitSource) : Option (ByteArray × BitSource) :=
  let start := source.byteIndex
  if start + count ≤ source.bytes.size then
    some (source.bytes.extract start (start + count), source.atByte (start + count))
  else none

end BitSource

end PixelBlocks

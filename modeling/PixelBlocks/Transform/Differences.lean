import PixelBlocks.Bytes

/-!
# Differences of bytes

Each byte after the first is replaced by its difference to the byte before it,
raised by 128 so that equal neighbours give 128. Integration undoes this from
the front, two bytes at a time, with sums in signed 16-bit words.
-/

namespace PixelBlocks.Differences

/-- The raised difference of a byte to the one before it. -/
def difference (sample previous : UInt8) : UInt8 :=
  sample - previous + 128

/-- The first byte followed by the differences of neighbours. -/
def ofSamples : Bytes → Bytes
  | [] => []
  | first :: rest => first :: List.zipWith difference rest (first :: rest)

/-- The lowest byte of a previous sample plus a raised difference. -/
def sampleAfter (previous : Int16) (step : UInt8) : UInt8 :=
  (previous + Int16.ofNat step.toNat - 128).toUInt16.toUInt8

/-- Integrates two differences at a time, and a single one at the end. -/
def integratePairs : (previous : Int16) → Bytes → Bytes
  | previous, first :: second :: rest =>
    let sample := sampleAfter previous first
    let next := sampleAfter (Int16.ofNat sample.toNat) second
    sample :: next :: integratePairs (Int16.ofNat next.toNat) rest
  | previous, [last] => [sampleAfter previous last]
  | _, [] => []

/-- The samples whose neighbours have the given differences. -/
def toSamples : Bytes → Bytes
  | [] => []
  | first :: rest => first :: integratePairs (Int16.ofNat first.toNat) rest

-- Differences of a flat area all equal 128.
example : ofSamples [7, 7, 7, 7] = [7, 128, 128, 128] := by decide

end PixelBlocks.Differences

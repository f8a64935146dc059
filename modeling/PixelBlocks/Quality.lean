import PixelBlocks.Single.Decimal

/-!
# Quality of lossy compression

The quality of the cosine-transform methods is a number of 32 bits. Any number
can be written down, but only finite ones that are not negative are accepted.
-/

namespace PixelBlocks

/-- The quality that a lossy method was asked for. -/
abbrev Quality := Single

/-- Finite and at least zero. Negative zero is acceptable. -/
def Quality.isAcceptable (quality : Quality) : Bool :=
  quality.isFinite && Single.isNonnegative quality

end PixelBlocks

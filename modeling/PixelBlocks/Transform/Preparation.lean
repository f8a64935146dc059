import PixelBlocks.Transform.Differences
import PixelBlocks.Transform.Separation

/-!
# Preparation of bytes

Before run-length or zlib coding the bytes of a block are separated and then
differenced. For slowly changing samples this gives long runs of the byte 128.
-/

namespace PixelBlocks.Preparation

/-- The prepared form of a block. -/
def prepare (samples : Bytes) : Bytes :=
  Differences.ofSamples (Separation.separate samples)

/-- The block of a prepared form. -/
def restore (prepared : Bytes) : Bytes :=
  Separation.interleave (Differences.toSamples prepared)

end PixelBlocks.Preparation

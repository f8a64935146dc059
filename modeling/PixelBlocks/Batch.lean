import PixelBlocks.Flat
import PixelBlocks.Schedule

/-!
# Batches of blocks

All blocks of scan lines of a layer can be compressed at once. Every block gets
its own copy of one compressor, so blocks do not depend on each other and may be
processed in any order. The first fault in input order is the fault of the batch.
-/

namespace PixelBlocks

/-- A block of scan lines: its first row and its bytes, raw or stored. -/
structure ScanLineBlock where
  row : Int32
  bytes : Bytes
  deriving DecidableEq, Repr, Inhabited

namespace Batch

/-- Compresses all blocks of a layer. -/
def compress (coders : Coders) (schedule : Schedule) (defaults : Defaults) (layer : Layer)
    (blocks : List ScanLineBlock) : Outcome (List Bytes) := do
  let prototype ← FlatCompressor.build defaults layer
  schedule.runAll (fun block => (prototype.compress coders block.bytes (.scanLines block.row)).1)
    blocks

/-- Decompresses all blocks of a layer. -/
def uncompress (coders : Coders) (schedule : Schedule) (defaults : Defaults) (layer : Layer)
    (blocks : List ScanLineBlock) : Outcome (List Bytes) := do
  let prototype ← FlatCompressor.build defaults layer
  schedule.runAll (fun block => (prototype.uncompress coders block.bytes (.scanLines block.row)).1)
    blocks

end Batch

end PixelBlocks

import PixelBlocks.Coders
import PixelBlocks.Zlib.Deflate
import PixelBlocks.Zlib.Inflate
import PixelBlocks.Zstd.Compress

/-!
# The coders of the tool

Zlib streams and zstandard frames as the tool reads and writes them. No dictionaries
are trained, but those of others are read.
-/

namespace PixelBlocks.Coders

/-- A byte string with constant access time. -/
def packed (bytes : Bytes) : ByteArray := ⟨bytes.toArray⟩

/-- The bytes of a byte string with constant access time. -/
def unpacked (bytes : ByteArray) : Bytes := bytes.data.toList

/-- The content of frames that refer to dictionary bytes. -/
def readFramesWith (dictionary : Bytes) (limit : Nat) (frames : Bytes) : Option Bytes := do
  let dictionary ← Zstd.Dictionary.read? (packed dictionary)
  let content ← Zstd.decompress dictionary limit (packed frames)
  return unpacked content

/-- The content of frames without a dictionary. -/
def readFrames (limit : Nat) (frames : Bytes) : Option Bytes :=
  (Zstd.decompress .none limit (packed frames)).map unpacked

/-- The coders of the tool. -/
def standard : Coders where
  deflate level bytes := unpacked (Zlib.deflate level (packed bytes))
  inflate limit stream := (Zlib.inflate limit (packed stream)).map unpacked
  levels := ⟨-131072, 22⟩
  frameBound := standardFrameBound
  compress level bytes := some (unpacked (Zstd.compress level (packed bytes)))
  decompress := readFrames
  train _ _ _ := none
  compressWith _ _ _ := none
  decompressWith := readFramesWith

end PixelBlocks.Coders

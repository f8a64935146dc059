import PixelBlocks.Bytes

/-!
# Entropy coders

Blocks are compressed by two general coders: zlib streams, and zstandard frames
with or without a dictionary. Everything above them only needs that a decoder
undoes its encoder, that encoders keep within their bound, and that decoders
never produce more than they were asked for. `Coders` collects the functions, and
the structures behind it those laws, so that statements hold for all coders and name
the laws that they need.
-/

namespace PixelBlocks

/-- The levels that a frame encoder accepts, from weakest to strongest. -/
structure LevelRange where
  least : Int32
  greatest : Int32
  deriving DecidableEq, Repr, Inhabited

namespace LevelRange

/-- The encoder level for a level between 1 and 9: every other level from 1 on,
    and the strongest one for 9. -/
def encoderLevel (range : LevelRange) (level : UInt8) : Int32 :=
  if 9 ≤ level then range.greatest
  else
    let wanted := 2 * Int32.ofNat level.toNat - 1
    let lowest := max range.least 1
    if wanted < lowest then lowest
    else if range.greatest < wanted then range.greatest
    else wanted

end LevelRange

/-- The general coders that blocks are compressed with. -/
structure Coders where
  /-- The zlib stream of some bytes at a level between 0 and 9. -/
  deflate : (level : UInt8) → Bytes → Bytes
  /-- The content of a zlib stream, if it has at most `limit` bytes. -/
  inflate : (limit : Nat) → Bytes → Option Bytes
  /-- The levels that frames can be compressed at. -/
  levels : LevelRange
  /-- The most bytes that a frame of a content of the given size may take. -/
  frameBound : (size : Nat) → Nat
  /-- A frame of some bytes. -/
  compress : (level : Int32) → Bytes → Option Bytes
  /-- The content of frames, if it has at most `limit` bytes. -/
  decompress : (limit : Nat) → Bytes → Option Bytes
  /-- A dictionary of at most `limit` bytes that suits samples of a size. -/
  train : (sampleSize : Nat) → (limit : Nat) → Bytes → Option Bytes
  /-- A frame of some bytes that refers to a dictionary. -/
  compressWith : (dictionary : Bytes) → (level : Int32) → Bytes → Option Bytes
  /-- The content of frames that refer to a dictionary. -/
  decompressWith : (dictionary : Bytes) → (limit : Nat) → Bytes → Option Bytes

namespace Coders

/-- The bound that zstandard gives for its frames: one more byte for each 256, and up to 64
    more for contents below 128 KiB. -/
def standardFrameBound (size : Nat) : Nat :=
  size + size / 256 + (if size < 131072 then (131072 - size) / 2048 else 0)

/-- Zlib streams decode to their content within any limit that the content respects.
    No stream is empty, because each starts with a header. -/
structure ZlibLaws (coders : Coders) : Prop where
  inflate_deflate : ∀ level limit bytes, level ≤ 9 → bytes.length ≤ limit →
    coders.inflate limit (coders.deflate level bytes) = some bytes
  deflate_ne_nil : ∀ level bytes, level ≤ 9 → coders.deflate level bytes ≠ []

/-- Frames decode to their content within any limit that the content respects. -/
structure FrameLaws (coders : Coders) : Prop where
  decompress_compress : ∀ level limit bytes frame, coders.compress level bytes = some frame →
    bytes.length ≤ limit → coders.decompress limit frame = some bytes

/-- Every byte string has a frame, which is not empty and keeps the bound. -/
structure FrameBounds (coders : Coders) : Prop where
  compress_isSome : ∀ level bytes, (coders.compress level bytes).isSome
  compress_bounds : ∀ level bytes frame, coders.compress level bytes = some frame →
    0 < frame.length ∧ frame.length ≤ coders.frameBound bytes.length

/-- The bound of frames is that of zstandard for all contents whose size has 32 bits. -/
structure FrameGrowth (coders : Coders) : Prop where
  frameBound_eq : ∀ size, size < 0x100000000 → coders.frameBound size = standardFrameBound size

/-- Trained dictionaries and frames that refer to a dictionary are not empty, and such
    frames decode to their content with the same dictionary. -/
structure DictionaryLaws (coders : Coders) : Prop where
  train_ne_nil : ∀ sampleSize limit bytes dictionary,
    coders.train sampleSize limit bytes = some dictionary → dictionary ≠ []
  compressWith_ne_nil : ∀ dictionary level bytes frame,
    coders.compressWith dictionary level bytes = some frame → frame ≠ []
  decompressWith_compressWith : ∀ dictionary level limit bytes frame,
    coders.compressWith dictionary level bytes = some frame →
    bytes.length ≤ limit → coders.decompressWith dictionary limit frame = some bytes

/-- Trained dictionaries respect the limit. -/
structure TrainingLimit (coders : Coders) : Prop where
  length_train : ∀ sampleSize limit bytes dictionary,
    coders.train sampleSize limit bytes = some dictionary → dictionary.length ≤ limit

/-- Decoders respect the limit. -/
structure LimitLaws (coders : Coders) : Prop where
  length_inflate : ∀ limit stream bytes, coders.inflate limit stream = some bytes →
    bytes.length ≤ limit
  length_decompress : ∀ limit frames bytes, coders.decompress limit frames = some bytes →
    bytes.length ≤ limit
  length_decompressWith : ∀ dictionary limit frames bytes,
    coders.decompressWith dictionary limit frames = some bytes → bytes.length ≤ limit

/-- Everything that blocks rely on. -/
structure Lawful (coders : Coders) : Prop extends
  ZlibLaws coders, FrameLaws coders, FrameBounds coders, FrameGrowth coders,
  DictionaryLaws coders, LimitLaws coders

end Coders

end PixelBlocks

import PixelBlocks.Layer
import PixelBlocks.Chunk
import PixelBlocks.Transform.RunLength
import PixelBlocks.Transform.Planes

/-!
# Flat blocks

A flat compressor is made for one layer. It compresses blocks of scan lines,
named by their first row, and tiles, named by their rectangle. A block is stored
raw whenever its compressed form is not shorter, so a stored block of the raw
length is a raw block. The compressor keeps two buffers between calls, one for
prepared bytes and one for the bytes it returned last.
-/

namespace PixelBlocks

/-- The bytes that an instance keeps between calls. -/
structure Buffers where
  /-- Prepared bytes of the last block that needed preparation. -/
  scratch : Bytes
  /-- The bytes that were returned last. -/
  output : Bytes
  deriving DecidableEq, Repr, Inhabited

namespace Buffers

/-- Buffers that hold nothing. -/
def empty : Buffers := ⟨[], []⟩

end Buffers

/-- Compresses and decompresses the blocks of a flat layer. -/
structure FlatCompressor where
  method : Method
  channels : ChannelList
  window : Rectangle
  /-- No tile may be larger than this. -/
  largest : Pair UInt64
  /-- How many scan lines form a full block. -/
  scanLines : Nat
  zipLevel : UInt8
  zstdLevel : UInt8
  quality : Quality
  buffers : Buffers
  deriving DecidableEq, Repr, Inhabited

namespace FlatCompressor

/-- A compressor for a flat layer, which reads the defaults once. -/
def build (defaults : Defaults) (layer : Layer) : Outcome FlatCompressor := do
  layer.validate
  if layer.deep then .error (.configuration .deepLayer)
  else
    return {
      method := layer.method
      channels := layer.channels
      window := layer.window
      largest := layer.largestBlock
      scanLines := layer.method.scanLines
      zipLevel := defaults.zip
      zstdLevel := layer.effectiveZstdLevel defaults
      quality := layer.effectiveQuality defaults
      buffers := .empty }

/-- Forgets the contents of the buffers. -/
def clear (compressor : FlatCompressor) : FlatCompressor :=
  { compressor with buffers := .empty }

/-- The rectangle of the block of scan lines that starts at a row. The row lies in
    the window, a multiple of the block height below its start. -/
def blockAt (compressor : FlatCompressor) (row : Int32) : Outcome Rectangle := do
  let first := compressor.window.position.y
  let opposite ← compressor.window.opposite
  if row < first ∨ opposite.y ≤ row then .error (.invalid (.originOutside row))
  else if floorRemainder (row - first) (Int32.ofNat compressor.scanLines) ≠ 0 then
    .error (.invalid (.originUnaligned row compressor.scanLines))
  else
    let height := min (opposite.y - row).toInt.toNat compressor.scanLines
    return ⟨⟨compressor.window.position.x, row⟩,
      ⟨compressor.window.size.x, UInt64.ofNat height⟩⟩

/-- Accepts tiles that are not too large and lie within the window. -/
def validateTile (compressor : FlatCompressor) (tile : Rectangle) : Outcome Unit := do
  tile.validate (some compressor.largest)
  let inside ← compressor.window.contains tile
  if inside then .ok () else .error (.invalid .tileOutside)

/-- Where a block lies: at a row, or in a rectangle. -/
inductive Place
  | scanLines (row : Int32)
  | tile (bounds : Rectangle)
  deriving DecidableEq, Repr, Inhabited

/-- The rectangle of a place that the compressor accepts. -/
def boundsOf (compressor : FlatCompressor) : Place → Outcome Rectangle
  | .scanLines row => compressor.blockAt row
  | .tile bounds => do
    compressor.validateTile bounds
    return bounds

/-- Refuses raw blocks that do not have the size of their rectangle. -/
def checkLength (compressor : FlatCompressor) (raw : Bytes) (bounds : Rectangle) :
    Outcome Unit := do
  let expected ← compressor.channels.byteSize bounds
  if raw.length = expected then .ok ()
  else .error (.capacity (.blockLength raw.length expected))

/-- The scratch buffer after preparing a raw block. -/
def prepared (compressor : FlatCompressor) (raw : Bytes) : Bytes :=
  match compressor.method with
  | .runLength | .zipLine | .zipBlock => Preparation.prepare raw
  | _ => compressor.buffers.scratch

/-- How the chunk of a block shuffles: by the sample size that all channels share,
    or else by four bytes. -/
def chunkParameters (compressor : FlatCompressor) : ChunkParameters :=
  .shuffle (compressor.channels.uniformType?.elim 4 SampleType.byteSize) compressor.zstdLevel

/-- The zlib stream of the planes of a block. An empty block has an empty form. -/
def encodePlanes (coders : Coders) (compressor : FlatCompressor) (raw : Bytes)
    (bounds : Rectangle) : Outcome Bytes :=
  if raw.isEmpty then .ok []
  else do
    let segments ← Planes.segments compressor.channels bounds
    let planes ← Planes.encode segments raw
    return coders.deflate compressor.zipLevel planes

/-- The compressed form of a block, if the method has one. The bytes that need
    preparation are taken from the scratch buffer. -/
def encodedForm (coders : Coders) (compressor : FlatCompressor) (scratch raw : Bytes)
    (bounds : Rectangle) : Outcome (Option Bytes) :=
  match compressor.method with
  | .uncompressed => .ok none
  | .runLength => .ok (some (RunLength.pack scratch))
  | .zipLine | .zipBlock => .ok (some (coders.deflate compressor.zipLevel scratch))
  | .pxr24 => do
    let form ← compressor.encodePlanes coders raw bounds
    return some form
  | .zstd => do
    let form ← Chunk.encode coders compressor.chunkParameters raw
    return some form
  | method => .error (.unsupported (.flatMethod method))

/-- A compressed form if it is shorter, else the raw bytes. -/
def shorterForm (form : Option Bytes) (raw : Bytes) : Bytes :=
  match form with
  | some compressed => if compressed.length < raw.length then compressed else raw
  | none => raw

/-- Compresses the block of a rectangle. -/
def compressSection (coders : Coders) (compressor : FlatCompressor) (raw : Bytes)
    (bounds : Rectangle) : Outcome Bytes × FlatCompressor :=
  match compressor.checkLength raw bounds with
  | .error fault => (.error fault, compressor)
  | .ok () =>
    let scratch := compressor.prepared raw
    match compressor.encodedForm coders scratch raw bounds with
    | .error fault =>
      (.error fault, { compressor with buffers := { compressor.buffers with scratch } })
    | .ok form =>
      let output := shorterForm form raw
      (.ok output, { compressor with buffers := ⟨scratch, output⟩ })

/-- The block of planes in a zlib stream. An empty stream stands for nothing. The block is
    one that a buffer has room for. -/
def decodePlanes (coders : Coders) (compressor : FlatCompressor) (stored : Bytes)
    (bounds : Rectangle) (expected : Nat) : Outcome Bytes :=
  if stored.isEmpty then .ok []
  else
    match coders.inflate expected stored with
    | none => .error (.invalid .zlibStream)
    | some planes => do
      let segments ← Planes.segments compressor.channels bounds
      Planes.decode segments planes

/-- The prepared block of a zlib stream. -/
def decodeZip (coders : Coders) (stored : Bytes) (expected : Nat) : Outcome Bytes :=
  match coders.inflate expected stored with
  | none => .error (.invalid .zlibStream)
  | some prepared => .ok (Preparation.restore prepared)

/-- The block that a compressed form stands for, whatever its length. -/
def decodedForm (coders : Coders) (compressor : FlatCompressor) (stored : Bytes)
    (bounds : Rectangle) (expected : Nat) : Outcome Bytes :=
  match compressor.method with
  | .runLength => RunLength.decompress expected stored
  | .zipLine | .zipBlock => decodeZip coders stored expected
  | .pxr24 => compressor.decodePlanes coders stored bounds expected
  | .zstd => Chunk.decode coders stored expected
  | _ => .error (.invalid (.blockLength stored.length expected))

/-- The raw block of stored bytes: themselves if they have the raw length. -/
def rawForm (coders : Coders) (compressor : FlatCompressor) (stored : Bytes)
    (bounds : Rectangle) (expected : Nat) : Outcome Bytes :=
  if ¬ compressor.method.isImplemented then
    .error (.unsupported (.flatMethod compressor.method))
  else if stored.length = expected then .ok stored
  else do
    let raw ← compressor.decodedForm coders stored bounds expected
    if raw.length = expected then .ok raw
    else .error (.invalid (.decodedLength compressor.method))

/-- Decompresses the block of a rectangle. -/
def uncompressSection (coders : Coders) (compressor : FlatCompressor) (stored : Bytes)
    (bounds : Rectangle) : Outcome Bytes × FlatCompressor :=
  match compressor.channels.byteSize bounds with
  | .error fault => (.error fault, compressor)
  | .ok expected =>
    match compressor.rawForm coders stored bounds expected with
    | .error fault => (.error fault, compressor)
    | .ok output =>
      (.ok output, { compressor with buffers := { compressor.buffers with output } })

/-- Compresses the block at a place. -/
def compress (coders : Coders) (compressor : FlatCompressor) (raw : Bytes) (place : Place) :
    Outcome Bytes × FlatCompressor :=
  match compressor.boundsOf place with
  | .error fault => (.error fault, compressor)
  | .ok bounds => compressor.compressSection coders raw bounds

/-- Decompresses the block at a place. -/
def uncompress (coders : Coders) (compressor : FlatCompressor) (stored : Bytes) (place : Place) :
    Outcome Bytes × FlatCompressor :=
  match compressor.boundsOf place with
  | .error fault => (.error fault, compressor)
  | .ok bounds => compressor.uncompressSection coders stored bounds

end FlatCompressor

end PixelBlocks

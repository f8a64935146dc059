import PixelBlocks.Deep.Envelope
import PixelBlocks.Deep.Offsets
import PixelBlocks.Flat
import PixelBlocks.Schedule

/-!
# Deep blocks

The pixels of a deep block hold any number of samples. The sample data is stored
channel by channel, and an offset table says how many samples each pixel has.
With zstandard each channel becomes a chunk with parameters that suit its type,
and all chunks go into an envelope. The other methods compress the samples of all
channels as one byte string and store it raw if it does not shrink. Offset tables
are compressed the same way.
-/

namespace PixelBlocks

/-- Compresses and decompresses the blocks of a deep layer. -/
structure DeepCompressor where
  method : Method
  channels : ChannelList
  zipLevel : UInt8
  zstdLevel : UInt8
  buffers : Buffers
  deriving DecidableEq, Repr, Inhabited

namespace DeepCompressor

/-- Whether deep blocks can be compressed with a method. -/
def implements : Method → Bool
  | .uncompressed | .runLength | .zipLine | .zstd => true
  | _ => false

/-- A compressor for a deep layer, which reads the defaults once. -/
def build (defaults : Defaults) (layer : Layer) : Outcome DeepCompressor := do
  layer.validate
  if ¬ layer.deep then .error (.configuration .flatLayer)
  else if ¬ implements layer.method then .error (.unsupported (.deepMethod layer.method))
  else
    return {
      method := layer.method
      channels := layer.channels
      zipLevel := defaults.zip
      zstdLevel := layer.effectiveZstdLevel defaults
      buffers := .empty }

/-- Deep blocks are single scan lines. -/
def scanLines (_compressor : DeepCompressor) : Nat := 1

/-- Forgets the contents of the buffers. -/
def clear (compressor : DeepCompressor) : DeepCompressor :=
  { compressor with buffers := .empty }

/-- The bytes of one channel within the sample data. -/
structure ChannelRange where
  type : SampleType
  start : Nat
  stop : Nat
  deriving DecidableEq, Repr

/-- The ranges of consecutive channels from a start on, which end where the
    sample data ends. -/
def rangesFrom (total available : Nat) :
    (start : Nat) → ChannelList → Outcome (List ChannelRange)
  | start, [] =>
    if start = available then .ok []
    else .error (.invalid (.deepBlockLength available start))
  | start, channel :: others =>
    match (Size.mul? total channel.type.byteSize).bind (Size.add? start) with
    | none => .error (.capacity .channelRange)
    | some stop =>
      if available < stop then .error (.capacity (.channelEnd channel.name stop available))
      else do
        let rest ← rangesFrom total available stop others
        return ⟨channel.type, start, stop⟩ :: rest

/-- The ranges of all channels, which cover the sample data exactly. -/
def channelRanges (channels : ChannelList) (total available : Nat) :
    Outcome (List ChannelRange) :=
  rangesFrom total available 0 channels

/-- The bytes of a range. -/
def ChannelRange.slice (range : ChannelRange) (samples : Bytes) : Bytes :=
  (samples.drop range.start).take (range.stop - range.start)

/-- The scratch buffer after preparing bytes. -/
def prepared (compressor : DeepCompressor) (raw : Bytes) : Bytes :=
  match compressor.method with
  | .runLength | .zipLine => Preparation.prepare raw
  | _ => compressor.buffers.scratch

/-- Compresses bytes with one of the byte methods. Prepared bytes are taken from
    the scratch buffer. -/
def packBytes (coders : Coders) (method : Method) (zipLevel : UInt8) (scratch raw : Bytes) :
    Bytes :=
  let form := match method with
    | .runLength => some (RunLength.pack scratch)
    | .zipLine => some (coders.deflate zipLevel scratch)
    | _ => none
  FlatCompressor.shorterForm form raw

/-- Decompresses bytes of one of the byte methods. Bytes of the expected length
    are raw. -/
def unpackBytes (coders : Coders) (method : Method) (stored : Bytes) (expected : Nat) :
    Outcome Bytes :=
  if stored.length = expected then .ok stored
  else do
    let raw ← match method with
      | .runLength => RunLength.decompress expected stored
      | .zipLine => FlatCompressor.decodeZip coders stored expected
      | _ => .error (.invalid (.deepDataLength stored.length expected))
    if raw.length = expected then .ok raw
    else .error (.invalid (.decodedDeepLength method))

/-- Compresses bytes and keeps what the byte methods leave in the buffers. -/
def storeBytes (coders : Coders) (compressor : DeepCompressor) (raw : Bytes) :
    Outcome Bytes × DeepCompressor :=
  let scratch := compressor.prepared raw
  let output := packBytes coders compressor.method compressor.zipLevel scratch raw
  (.ok output, { compressor with buffers := ⟨scratch, output⟩ })

/-- The instance with another output. -/
def withOutput (compressor : DeepCompressor) (output : Bytes) : DeepCompressor :=
  { compressor with buffers := { compressor.buffers with output } }

/-- The instance at the start of a call, which discards the bytes it returned
    before. -/
def started (compressor : DeepCompressor) : DeepCompressor := compressor.withOutput []

/-- The instance after a call whose outcome replaces the output. -/
def replacing (compressor : DeepCompressor) (outcome : Outcome Bytes) :
    Outcome Bytes × DeepCompressor :=
  match outcome with
  | .ok output => (.ok output, compressor.withOutput output)
  | .error fault => (.error fault, compressor)

/-- The instance after a call whose outcome is appended to the output. All of the output is
    returned. -/
def appending (compressor : DeepCompressor) (outcome : Outcome Bytes) :
    Outcome Bytes × DeepCompressor :=
  compressor.replacing (outcome.map (compressor.buffers.output ++ ·))

/-- Appends the envelope of chunks to the output and returns all of the output. Of an envelope
    that cannot be finished, the front stays in the output. -/
def appendEnvelope (compressor : DeepCompressor) (chunks : Outcome (List Bytes)) :
    Outcome Bytes × DeepCompressor :=
  match chunks with
  | .error fault => (.error fault, compressor)
  | .ok chunks =>
    let (outcome, output) := Envelope.append compressor.buffers.output chunks
    (outcome.map fun _ => output, compressor.withOutput output)

/-- The chunks of all channels. -/
def channelChunks (coders : Coders) (schedule : Schedule) (level : UInt8) (samples : Bytes)
    (ranges : List ChannelRange) : Outcome (List Bytes) :=
  schedule.runAll
    (fun range => Chunk.encode coders (.ofSampleType range.type level) (range.slice samples))
    ranges

/-- Compresses the samples of a block. -/
def compress (coders : Coders) (schedule : Schedule) (compressor : DeepCompressor)
    (samples : Bytes) (offsets : List Int32) : Outcome Bytes × DeepCompressor :=
  let compressor := compressor.started
  let ranges := do
    let total ← Offsets.total offsets
    channelRanges compressor.channels total samples.length
  match ranges with
  | .error fault => (.error fault, compressor)
  | .ok ranges =>
    if compressor.method = .zstd then
      compressor.appendEnvelope
        (channelChunks coders schedule compressor.zstdLevel samples ranges)
    else compressor.storeBytes coders samples

/-- A chunk of an envelope and what its channel expects of it. -/
structure ExpectedChunk where
  type : SampleType
  size : Nat
  chunk : Bytes
  deriving DecidableEq, Repr

/-- Pairs channels with the chunks of an envelope. -/
def expectChunks (total : Nat) (channels : ChannelList) (chunks : List Bytes) :
    Outcome (List ExpectedChunk) :=
  (channels.zip chunks).mapM fun (channel, chunk) =>
    match Size.mul? total channel.type.byteSize with
    | some size => .ok ⟨channel.type, size, chunk⟩
    | none => .error (.capacity .deepChannelSize)

/-- Decodes a chunk after checking that it was written for samples of its type. -/
def decodeChunk (coders : Coders) (expected : ExpectedChunk) : Outcome Bytes := do
  let (header, _) ← ChunkHeader.read expected.chunk
  if header.parameters.preprocessing ≠ .ofSampleType expected.type
      ∨ header.parameters.typeSize ≠ expected.type.byteSize then
    .error (.invalid (.envelopeChunkType expected.type))
  else Chunk.decode coders expected.chunk expected.size

/-- The samples of all channels in an envelope. -/
def decodeChannels (coders : Coders) (schedule : Schedule) (channels : ChannelList)
    (envelope : Bytes) (total : Nat) : Outcome Bytes := do
  let chunks ← Envelope.decode envelope channels.length
  let expected ← expectChunks total channels chunks
  let decoded ← schedule.runAll (decodeChunk coders) expected
  return decoded.flatten

/-- The samples of all channels in a byte string of one of the byte methods. -/
def decodeBuffer (coders : Coders) (compressor : DeepCompressor) (stored : Bytes)
    (total : Nat) : Outcome Bytes :=
  match Size.mul? total compressor.channels.bytesPerPixel with
  | none => .error (.capacity .deepBlockSize)
  | some expected => unpackBytes coders compressor.method stored expected

/-- Decompresses the samples of a block. -/
def uncompress (coders : Coders) (schedule : Schedule) (compressor : DeepCompressor)
    (stored : Bytes) (offsets : List Int32) : Outcome Bytes × DeepCompressor :=
  let compressor := compressor.started
  match Offsets.total offsets with
  | .error fault => (.error fault, compressor)
  | .ok total =>
    if compressor.method = .zstd then
      compressor.appending (decodeChannels coders schedule compressor.channels stored total)
    else compressor.replacing (compressor.decodeBuffer coders stored total)

/-- Compresses the offset table of a block. -/
def compressTable (coders : Coders) (compressor : DeepCompressor) (offsets : List Int32) :
    Outcome Bytes × DeepCompressor :=
  let compressor := compressor.started
  match Offsets.total offsets with
  | .error fault => (.error fault, compressor)
  | .ok _ =>
    let table := Offsets.encode offsets
    if compressor.method = .zstd then
      compressor.appendEnvelope do
        let chunk ← Chunk.encode coders (.ofSampleType .uint compressor.zstdLevel) table
        return [chunk]
    else compressor.storeBytes coders table

/-- The stored form of the offset table of a block of the given number of pixels. -/
def tableBytes (coders : Coders) (compressor : DeepCompressor) (stored : Bytes)
    (size : Nat) : Outcome Bytes :=
  if compressor.method = .zstd then do
    let chunks ← Envelope.decode stored 1
    decodeChunk coders ⟨.uint, size, chunks.headD []⟩
  else unpackBytes coders compressor.method stored size

/-- Decompresses the offset table of a block of the given number of pixels. -/
def uncompressTable (coders : Coders) (compressor : DeepCompressor) (stored : Bytes)
    (pixels : Nat) : Outcome (List Int32) × DeepCompressor :=
  let compressor := compressor.started
  let outcome := do
    match Size.mul? pixels 4 with
    | none => .error (.capacity .offsetTableSize)
    | some size =>
      let table ← compressor.tableBytes coders stored size
      Offsets.decode pixels table
  (outcome, compressor)

end DeepCompressor

end PixelBlocks

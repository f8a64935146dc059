import PixelBlocks.Coders
import PixelBlocks.Deep

/-!
# Reports on compressed bytes

What compressed bytes hold, without the choices of an encoder: the content of a zlib
stream, and the header and frame content of a chunk.
-/

namespace PixelBlocks

/-- What a chunk holds. -/
structure ChunkReport where
  /-- The first twelve bytes, without the flag for a dictionary. -/
  head : Bytes
  uncompressed : Nat
  /-- Whether the sizes add up to the chunk, the chunk keeps its bound, and there is a
      dictionary only where one was asked for. -/
  consistent : Bool
  /-- The frame content, which is still shuffled. -/
  content : Bytes
  deriving DecidableEq, Repr

namespace ChunkReport

/-- Clears the dictionary flag of the first bytes of a chunk. -/
def withoutDictionaryFlag (head : Bytes) : Bytes :=
  head.modify 5 (· &&& 0xfe)

/-- The report on a chunk that can be decoded. -/
def ofChunk? (coders : Coders) (chunk : Bytes) : Option ChunkReport :=
  match ChunkHeader.read chunk with
  | .error _ => none
  | .ok (header, body) => do
    let size := header.uncompressed.toNat
    let dictionary := body.take header.dictionary
    let content ← Chunk.unpackFrame coders dictionary (body.drop header.dictionary) size
    let addsUp := match header.chunkSize with
      | .ok total => total == chunk.length
      | .error _ => false
    return {
      head := withoutDictionaryFlag (chunk.take 12)
      uncompressed := size
      consistent := addsUp && decide (chunk.length ≤ Chunk.bound coders size)
        && (header.dictionary == 0 || header.parameters.preprocessing == .dictionary)
      content }

end ChunkReport

/-- What a stored block holds. -/
inductive BlockReport
  | raw (bytes : Bytes)
  | packed (bytes : Bytes)
  | inflated (content : Bytes)
  | chunk (report : ChunkReport)
  /-- The stored bytes cannot be decoded. -/
  | broken
  deriving DecidableEq, Repr

namespace BlockReport

/-- The report on the stored form of a raw block of the given length. -/
def ofStored (coders : Coders) (method : Method) (rawLength : Nat) (stored : Bytes) :
    BlockReport :=
  if rawLength ≤ stored.length then .raw stored
  else
    match method with
    | .zipLine | .zipBlock | .pxr24 => (coders.inflate rawLength stored).elim broken inflated
    | .zstd => (ChunkReport.ofChunk? coders stored).elim broken chunk
    | _ => .packed stored

end BlockReport

/-- Byte strings after their sizes, as many as are asked for and present, and what
    follows them. -/
def splitSized : (count : Nat) → Bytes → List Bytes × Bytes
  | 0, bytes => ([], bytes)
  | count + 1, bytes =>
    match Scalar.int32.read bytes with
    | .error _ => ([], bytes)
    | .ok (size, rest) =>
      let length := (Int32.toInt size).toNat
      let (others, remaining) := splitSized count (rest.drop length)
      (rest.take length :: others, remaining)

/-- What an envelope holds. -/
structure EnvelopeReport where
  version : Int32
  chunks : List (Option ChunkReport)
  /-- How many bytes follow the last chunk. -/
  trailing : Nat
  deriving DecidableEq, Repr

namespace EnvelopeReport

/-- The report on an envelope with a number of chunks. -/
def ofEnvelope? (coders : Coders) (count : Nat) (envelope : Bytes) : Option EnvelopeReport :=
  match Scalar.int32.read envelope with
  | .error _ => none
  | .ok (version, rest) =>
    let (chunks, rest) := splitSized count rest
    some ⟨version, chunks.map (ChunkReport.ofChunk? coders), rest.length⟩

end EnvelopeReport

end PixelBlocks

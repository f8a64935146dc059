import PixelBlocks.Chunk.Header
import PixelBlocks.Coders
import PixelBlocks.Transform.Shuffle
import PixelBlocks.Transform.Truncation

/-!
# Chunks

A chunk holds one byte string in compressed form and describes itself: after its
header follow the dictionary, which may be empty, and the zstandard frame of the
prepared bytes. A chunk is decoded only as a whole, and only to the size that the
reader expects.
-/

namespace PixelBlocks.Chunk

/-- Dictionaries are only tried for at least this many bytes. -/
def dictionaryThreshold : Nat := 16384

/-- The largest dictionary. -/
def largestDictionary : Nat := 16384

/-- How many bytes a dictionary sample has. -/
def dictionarySample : Nat := 1024

/-- The largest chunk that bytes of a size can give. -/
def bound (coders : Coders) (size : Nat) : Nat := ChunkHeader.chunkBound coders.frameBound size

/-- The bytes that the chunk will decode to: truncation is not undone. -/
def settled (preprocessing : Preprocessing) (bytes : Bytes) : Bytes :=
  match preprocessing with
  | .truncate => Truncation.truncate bytes
  | .shuffle | .dictionary => bytes

/-- The bytes as they enter the frame. -/
def prepare (parameters : ChunkParameters) (bytes : Bytes) : Bytes :=
  Shuffle.shuffle parameters.typeSize (settled parameters.preprocessing bytes)

/-- A dictionary for the prepared bytes and the frame that refers to it. -/
def dictionaryCandidate? (coders : Coders) (level : Int32) (prepared : Bytes) :
    Option (Bytes × Bytes) := do
  let limit := min (prepared.length / 8) largestDictionary
  let dictionary ← coders.train dictionarySample limit prepared
  let frame ← coders.compressWith dictionary level prepared
  return (dictionary, frame)

/-- The dictionary and frame that are stored: with a dictionary only if that is
    asked for, worth trying, and smaller. -/
def chooseFrame (coders : Coders) (preprocessing : Preprocessing) (level : Int32)
    (prepared plain : Bytes) : Bytes × Bytes :=
  if preprocessing = .dictionary ∧ dictionaryThreshold ≤ prepared.length then
    match dictionaryCandidate? coders level prepared with
    | some (dictionary, frame) =>
      if dictionary.length + frame.length < plain.length then (dictionary, frame)
      else ([], plain)
    | none => ([], plain)
  else ([], plain)

/-- The header of a chunk. -/
def headerOf (parameters : ChunkParameters) (bytes dictionary payload : Bytes) : ChunkHeader :=
  { parameters
    uncompressed := UInt64.ofNat bytes.length
    dictionary := dictionary.length
    payload := payload.length }

/-- Compresses bytes into a chunk. -/
def encode (coders : Coders) (parameters : ChunkParameters) (bytes : Bytes) : Outcome Bytes := do
  parameters.validate
  let level := coders.levels.encoderLevel parameters.level
  let prepared := prepare parameters bytes
  match coders.compress level prepared with
  | none => .error (.encoding .zstdFailed)
  | some plain =>
    let (dictionary, payload) :=
      chooseFrame coders parameters.preprocessing level prepared plain
    let stored := dictionary.length + payload.length
    let limit := coders.frameBound prepared.length
    if payload.isEmpty ∨ limit < stored then .error (.encoding (.zstdBound stored limit))
    else
      let header := headerOf parameters bytes dictionary payload
      let _ ← header.chunkSize
      let front ← header.encode
      return front ++ dictionary ++ payload

/-- The frame content behind a header, with the dictionary if there is one. -/
def unpackFrame (coders : Coders) (dictionary payload : Bytes) (expected : Nat) : Option Bytes :=
  if dictionary.isEmpty then coders.decompress expected payload
  else coders.decompressWith dictionary expected payload

/-- Decompresses a chunk that must hold exactly the expected number of bytes and
    nothing behind its payload. -/
def decode (coders : Coders) (chunk : Bytes) (expected : Nat) : Outcome Bytes := do
  let (header, body) ← ChunkHeader.read chunk
  if header.uncompressed.toNat ≠ expected then
    .error (.invalid (.chunkContent header.uncompressed.toNat expected))
  else
    let declared ← header.chunkSize
    if declared ≠ chunk.length then .error (.invalid (.chunkLength chunk.length declared))
    else
      let dictionary := body.take header.dictionary
      let payload := body.drop header.dictionary
      match unpackFrame coders dictionary payload expected with
      | none => .error (.invalid .zstdFrame)
      | some prepared =>
        if prepared.length ≠ expected then
          .error (.invalid (.chunkDecodedLength prepared.length expected))
        else .ok (Shuffle.unshuffle header.parameters.typeSize prepared)

end PixelBlocks.Chunk

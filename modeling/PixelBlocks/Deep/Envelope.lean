import PixelBlocks.Scalar.Stream

/-!
# Envelopes

An envelope holds chunks one after another: a version number, which is zero, and
then for each chunk its size as a signed 32-bit number and its bytes. It does not
say how many chunks there are or what they hold; the reader knows.
-/

namespace PixelBlocks.Envelope

/-- The only version. -/
def version : Int32 := 0

/-- The bytes of an envelope besides its chunks. -/
def overhead (chunks : Nat) : Nat := 4 * (1 + chunks)

/-- Appends chunks after their sizes to an output. A chunk that is too large ends this, and
    what was appended before it stays. -/
def appendChunks (output : Bytes) : List Bytes → Outcome Unit × Bytes
  | [] => (.ok (), output)
  | chunk :: others =>
    match Scalar.uint8.encodeSized chunk with
    | .error fault => (.error fault, output)
    | .ok sized => appendChunks (output ++ sized) others

/-- Appends the envelope of chunks to an output. -/
def append (output : Bytes) (chunks : List Bytes) : Outcome Unit × Bytes :=
  appendChunks (output ++ Scalar.int32.encode version) chunks

/-- Reads the given number of sized chunks and refuses further bytes. -/
def decodeChunks : (count : Nat) → Bytes → Outcome (List Bytes)
  | 0, [] => .ok []
  | 0, _ :: _ => .error (.invalid .envelopeTrailing)
  | count + 1, bytes => do
    let (size, bytes) ← Scalar.int32.read bytes
    let length := Int32.toInt size
    if length < 0 then .error (.invalid .envelopeChunkSize)
    else
      let chunk := bytes.take length.toNat
      if chunk.length < length.toNat then .error (.invalid .envelopeChunkExcess)
      else
        let others ← decodeChunks count (bytes.drop length.toNat)
        return chunk :: others

/-- The chunks of an envelope, of which there must be exactly the given number. -/
def decode (envelope : Bytes) (count : Nat) : Outcome (List Bytes) := do
  let (found, bytes) ← Scalar.int32.read envelope
  if found ≠ version then .error (.invalid (.envelopeVersion found))
  else decodeChunks count bytes

end PixelBlocks.Envelope

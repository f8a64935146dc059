import PixelBlocks.Proofs.Decoders
import PixelBlocks.Proofs.Flat.Blocks
import PixelBlocks.Proofs.Flat.RoundTrip
import PixelBlocks.Proofs.Layer.ByteSize

/-!
# Corrupt flat blocks are harmless

Whoever reads a stored block gets a block of the size of its place, or learns that the
bytes are invalid. The length is compared behind every decoder, so no decoder has to
promise it. What the decoders have to promise is that they come to an end of their own:
each fault they find is one of the bytes, and no step on the way lacks a result. Both are
followed here from the place of a block to its bytes.
-/

namespace PixelBlocks

open Outcome

/-- The methods of flat blocks that are implemented. -/
theorem Method.isImplemented_eq_true_iff {method : Method} :
    method.isImplemented = true ↔
      method ∈ [Method.uncompressed, .runLength, .zipLine, .zipBlock, .pxr24, .zstd] := by
  cases method <;> simp [isImplemented]

namespace Checked

open FlatCompressor

/-- The prepared block of a zlib stream, undone in steps that are checked. -/
def decodeZip (coders : Coders) (stored : Bytes) (expected : Nat) : Checked Bytes :=
  match coders.inflate expected stored with
  | none => .error (.fault (.invalid .zlibStream))
  | some prepared => restore prepared

/-- The block of planes in a zlib stream, read in steps that are checked. Room for the whole
block is reserved first. -/
def decodePlanes (coders : Coders) (compressor : FlatCompressor) (stored : Bytes)
    (bounds : Rectangle) (expected : Nat) : Checked Bytes :=
  if stored.isEmpty then .ok []
  else
    match coders.inflate expected stored with
    | none => .error (.fault (.invalid .zlibStream))
    | some planes => do
      reserve expected
      let segments ← segments compressor.channels bounds
      decode segments planes

/-- The block that a compressed form stands for, decoded in steps that are checked. -/
def decodedForm (coders : Coders) (compressor : FlatCompressor) (stored : Bytes)
    (bounds : Rectangle) (expected : Nat) : Checked Bytes :=
  match compressor.method with
  | .runLength => decompress expected stored
  | .zipLine | .zipBlock => decodeZip coders stored expected
  | .pxr24 => decodePlanes coders compressor stored bounds expected
  | .zstd => decodeChunk coders stored expected
  | _ => .error (.fault (.invalid (.blockLength stored.length expected)))

/-- The raw block of stored bytes, in steps that are checked. -/
def rawForm (coders : Coders) (compressor : FlatCompressor) (stored : Bytes)
    (bounds : Rectangle) (expected : Nat) : Checked Bytes :=
  if ¬ compressor.method.isImplemented then
    .error (.fault (.unsupported (.flatMethod compressor.method)))
  else if stored.length = expected then .ok stored
  else do
    let raw ← decodedForm coders compressor stored bounds expected
    if raw.length = expected then .ok raw
    else .error (.fault (.invalid (.decodedLength compressor.method)))

/-- Decompresses the block at a place, in steps that are checked. -/
def uncompress (coders : Coders) (compressor : FlatCompressor) (stored : Bytes)
    (place : Place) : Checked Bytes := do
  let bounds ← boundsOf compressor place
  let expected ← byteSize compressor.channels bounds
  rawForm coders compressor stored bounds expected

section Steps

variable {compressor : FlatCompressor} {bounds : Rectangle} {expected : Nat}

/-- A zlib stream is decoded in steps that have results. -/
theorem decodeZip_eq_ofOutcome (coders : Coders) (stored : Bytes) (expected : Nat) :
    decodeZip coders stored expected =
      ofOutcome (FlatCompressor.decodeZip coders stored expected) := by
  rw [decodeZip, FlatCompressor.decodeZip]
  cases coders.inflate expected stored with
  | none => rfl
  | some prepared => exact restore_eq_ok prepared

/-- Planes are read in steps that have results, if there is room for the block: the segments of
the rectangle take as many bytes as it has. -/
theorem decodePlanes_eq_ofOutcome (coders : Coders) (stored : Bytes)
    (held : expected < Size.bufferBound)
    (roomy : compressor.channels.RoomFrom bounds.position.y.toInt)
    (sized : compressor.channels.byteSize bounds = .ok expected) :
    decodePlanes coders compressor stored bounds expected =
      ofOutcome (compressor.decodePlanes coders stored bounds expected) := by
  obtain ⟨segments, found, filled, -⟩ := Planes.exists_segments sized
  have word : Planes.rawSize segments < Size.bound := by
    rw [filled]
    exact ChannelList.byteSize_lt sized
  rw [decodePlanes, FlatCompressor.decodePlanes]
  split
  · rfl
  · cases coders.inflate expected stored with
    | none => rfl
    | some planes =>
      dsimp only
      rw [reserve_eq_ok held, Outcome.ok_bind]
      refine bind_eq_ofOutcome (segments_eq_ofOutcome roomy) fun others again => ?_
      cases found.symm.trans again
      exact decode_eq_ofOutcome word planes

/-- Every method decodes in steps that have results. Only planes need room for the block. -/
theorem decodedForm_eq_ofOutcome (coders : Coders) (stored : Bytes)
    (held : compressor.method = .pxr24 → expected < Size.bufferBound)
    (roomy : compressor.channels.RoomFrom bounds.position.y.toInt)
    (sized : compressor.channels.byteSize bounds = .ok expected) :
    decodedForm coders compressor stored bounds expected =
      ofOutcome (compressor.decodedForm coders stored bounds expected) := by
  rw [decodedForm, FlatCompressor.decodedForm]
  cases method : compressor.method with
  | runLength => exact decompress_eq_ofOutcome expected stored
  | zipLine => exact decodeZip_eq_ofOutcome coders stored expected
  | zipBlock => exact decodeZip_eq_ofOutcome coders stored expected
  | pxr24 => exact decodePlanes_eq_ofOutcome coders stored (held method) roomy sized
  | zstd => exact decodeChunk_eq_ofOutcome coders stored expected
  | uncompressed | piz | b44 | b44a | dwaa _ | dwab _ => rfl

/-- The raw block is found in steps that have results. -/
theorem rawForm_eq_ofOutcome (coders : Coders) (stored : Bytes)
    (held : compressor.method = .pxr24 → expected < Size.bufferBound)
    (roomy : compressor.channels.RoomFrom bounds.position.y.toInt)
    (sized : compressor.channels.byteSize bounds = .ok expected) :
    rawForm coders compressor stored bounds expected =
      ofOutcome (compressor.rawForm coders stored bounds expected) := by
  refine guard_eq_ofOutcome fun _ => ?_
  split
  · rfl
  · refine bind_eq_ofOutcome (decodedForm_eq_ofOutcome coders stored held roomy sized)
      fun raw _ => ?_
    split <;> rfl

end Steps

end Checked

namespace FlatCompressor

variable {coders : Coders} {compressor : FlatCompressor} {bounds : Rectangle} {expected : Nat}

/-- Planes are read or invalid, if their rectangle has a size. -/
theorem invalidAtWorst_decodePlanes (sized : compressor.channels.byteSize bounds = .ok expected)
    (stored : Bytes) :
    InvalidAtWorst (compressor.decodePlanes coders stored bounds expected) := by
  obtain ⟨segments, found, -⟩ := Planes.exists_segments sized
  unfold decodePlanes
  split
  · exact invalidAtWorst_ok []
  · split
    · exact invalidAtWorst_invalid .zlibStream
    · rw [found]
      exact Planes.invalidAtWorst_decode segments _

/-- Every method decodes a form or finds it invalid. -/
theorem invalidAtWorst_decodedForm (sized : compressor.channels.byteSize bounds = .ok expected)
    (stored : Bytes) :
    InvalidAtWorst (compressor.decodedForm coders stored bounds expected) := by
  unfold decodedForm
  split
  · exact RunLength.invalidAtWorst_decompress expected stored
  · exact invalidAtWorst_decodeZip coders stored expected
  · exact invalidAtWorst_decodeZip coders stored expected
  · exact invalidAtWorst_decodePlanes sized stored
  · exact Chunk.invalidAtWorst_decode coders stored expected
  · exact invalidAtWorst_invalid _

/-- An implemented method takes stored bytes of the expected length as they are, and decodes
others to it. -/
theorem rawForm_eq (implemented : compressor.method.isImplemented = true) (stored : Bytes) :
    compressor.rawForm coders stored bounds expected =
      .exactly stored expected (compressor.decodedForm coders stored bounds expected)
        (.decodedLength compressor.method) := by
  rw [rawForm, if_neg (not_not.mpr implemented)]
  rfl

/-- An implemented method finds a raw block or invalid bytes. -/
theorem invalidAtWorst_rawForm (implemented : compressor.method.isImplemented = true)
    (sized : compressor.channels.byteSize bounds = .ok expected) (stored : Bytes) :
    InvalidAtWorst (compressor.rawForm coders stored bounds expected) := by
  rw [rawForm_eq implemented]
  exact (invalidAtWorst_decodedForm sized stored).exactly _

/-- A raw block that is found has the expected length. -/
theorem length_rawForm {stored raw : Bytes}
    (found : compressor.rawForm coders stored bounds expected = .ok raw) :
    raw.length = expected := by
  obtain ⟨implemented, -⟩ := guard_eq_ok_iff.mp found
  rw [rawForm_eq (not_not.mp implemented)] at found
  exact length_of_exactly found

/-- The zlib stream of the planes of one row. -/
def missingStream : Bytes :=
  [120, 94, 179, 101, 96, 96, 56, 3, 196, 103, 129, 216, 134, 1, 25, 176, 51, 2, 0, 45, 187, 2, 27]

/-- The planes of the first of four rows and their stream. -/
def missingRecording : Coders.Recording := .ofStreams
  { entries := [(rowPlanes.take 28, missingStream)]
    distinct := by decide
    unmarked := by decide }

example : (rowReader.uncompress missingRecording.coders missingStream (.scanLines 14)).1 =
    .error (.invalid .planesMissing) := rfl

end FlatCompressor

end PixelBlocks

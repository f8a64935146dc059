import PixelBlocks.Proofs.Chunk
import PixelBlocks.Proofs.Coders

/-!
# Chunks describe themselves

A chunk needs nothing but its own bytes to be decoded: its header repeats the
parameters it was written with, the number of bytes it was made of, and its own size.
Bytes of any length go through chunks, also those that end within a sample.
-/

namespace PixelBlocks.Chunk

/-- What a reader finds in a chunk of the given bytes. -/
structure Describes (coders : Coders) (parameters : ChunkParameters) (bytes chunk : Bytes) :
    Prop where
  nonempty : ChunkHeader.byteSize < chunk.length
  bounded : chunk.length ≤ bound coders bytes.length
  header : ∃ header body, ChunkHeader.read chunk = .ok (header, body) ∧
    header.parameters = parameters ∧ header.uncompressed.toNat = bytes.length ∧
    header.chunkSize = .ok chunk.length
  content : decode coders chunk bytes.length = .ok (settled parameters.preprocessing bytes)
  only : ∀ expected, expected ≠ bytes.length →
    ∃ cause, decode coders chunk expected = .error (.invalid cause)

variable {coders : Coders} {parameters : ChunkParameters} {bytes : Bytes}

/-- Everything a reader finds follows from the shape of the chunk. -/
theorem Written.describes {chunk dictionary payload : Bytes}
    (written : Written coders parameters bytes chunk dictionary payload)
    (word : bytes.length < Size.bound) : Describes coders parameters bytes chunk where
  nonempty := written.lt_length
  bounded := written.length_le
  header := ⟨_, _, written.read_eq, rfl, toNat_uncompressed parameters word dictionary payload,
    written.chunkSize_eq⟩
  content := written.decode_eq word
  only _ other := ⟨_, written.decode_other word other⟩

/-- Bytes of any length have a chunk for all valid parameters, and the chunk describes
itself. What it decodes to has a chunk again, which decodes to the same bytes. -/
theorem selfDescribing_roundTrip (frames : coders.FrameLaws) (bounds : coders.FrameBounds)
    (dictionaries : coders.DictionaryLaws) (training : coders.TrainingLimit)
    (valid : parameters.validate = .ok ()) (word : bytes.length < Size.bound)
    (fits : ∀ dictionary payload, stored coders parameters bytes = some (dictionary, payload) →
      payload.length < 0x100000000) :
    ∃ chunk, encode coders parameters bytes = .ok chunk ∧
      Describes coders parameters bytes chunk ∧
      ∃ again, encode coders parameters (settled parameters.preprocessing bytes) = .ok again ∧
        decode coders again bytes.length = .ok (settled parameters.preprocessing bytes) := by
  obtain ⟨chunk, encoded⟩ := exists_encode_of_stored bounds (fun _ => dictionaries) valid
    fun dictionary payload kept =>
      ⟨length_dictionary_lt training kept, fits dictionary payload kept⟩
  obtain ⟨dictionary, payload, written⟩ := exists_written frames (fun _ => dictionaries) encoded
  have describes := written.describes word
  exact ⟨chunk, encoded, describes, chunk, (encode_settled coders parameters bytes).trans encoded,
    describes.content⟩

/-- Two floats and three more bytes. -/
def unevenBytes : Bytes := [1, 0, 128, 63, 121, 233, 246, 194, 5, 6, 7]

/-- The frame of these bytes, truncated and shuffled. -/
def unevenRecording : Coders.Recording where
  streams := .empty
  frames :=
    { entries := [
        ([0, 0, 0, 233, 128, 246, 63, 194, 5, 6, 7],
          [40, 181, 47, 253, 32, 11, 89, 0, 0, 0, 0, 0, 233, 128, 246, 63, 194, 5, 6, 7])]
      distinct := by decide
      unmarked := by decide }
  bounded := by decide

/-- Two floats, which lose bits, and three more bytes, which do not, go through a chunk. -/
theorem selfDescribing_roundTrip_uneven :
    ∃ chunk, encode unevenRecording.coders ⟨4, 9, .truncate⟩ unevenBytes = .ok chunk ∧
      Describes unevenRecording.coders ⟨4, 9, .truncate⟩ unevenBytes chunk ∧
      ∃ again, encode unevenRecording.coders ⟨4, 9, .truncate⟩
          [0, 0, 128, 63, 0, 233, 246, 194, 5, 6, 7] = .ok again ∧
        decode unevenRecording.coders again 11 = .ok [0, 0, 128, 63, 0, 233, 246, 194, 5, 6, 7] := by
  have laws := unevenRecording.lawful
  have kept : stored unevenRecording.coders ⟨4, 9, .truncate⟩ unevenBytes =
      some ([], [40, 181, 47, 253, 32, 11, 89, 0, 0, 0, 0, 0, 233, 128, 246, 63, 194, 5, 6, 7]) :=
    rfl
  refine selfDescribing_roundTrip laws.toFrameLaws laws.toFrameBounds laws.toDictionaryLaws
    unevenRecording.trainingLimit rfl (by decide) ?_
  intro dictionary payload stores
  cases kept.symm.trans stores
  decide

end PixelBlocks.Chunk

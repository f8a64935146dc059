import PixelBlocks.Proofs.Chunk.Canonical
import PixelBlocks.Proofs.Coders
import PixelBlocks.Proofs.Corruption
import PixelBlocks.Proofs.Decoders

/-!
# Which bytes are chunks

The sizes in a chunk header come from anywhere, and each of them can be wrong on its own:
the number of bytes that the reader expects, the size of the whole chunk, and the size of
what the frame decodes to. What a chunk has to be is said here without the reader. The
reader accepts exactly these bytes, and it can be asked for the frame content again: what
it returns is shuffled to it. No chunk goes on where another one ends, whatever sizes their
readers expect.
-/

namespace PixelBlocks

namespace ChunkHeader

variable {header : ChunkHeader} {bytes rest : Bytes}

/-- Behind a header that was read are the bytes from its end on. -/
theorem eq_drop_of_read (found : read bytes = .ok (header, rest)) : rest = bytes.drop byteSize := by
  obtain ⟨joined, -, -⟩ := eq_layout_append_of_read found
  rw [joined, List.drop_left' header.length_layout]

/-- A header that was read is followed by the bytes behind its end. -/
theorem length_of_read (found : read bytes = .ok (header, rest)) :
    bytes.length = byteSize + rest.length := by
  obtain ⟨joined, -, -⟩ := eq_layout_append_of_read found
  rw [joined, List.length_append, length_layout]

/-- A header that was read declares a size. -/
theorem chunkSize_of_read (found : read bytes = .ok (header, rest)) :
    header.chunkSize = .ok (byteSize + header.dictionary + header.payload) := by
  obtain ⟨-, -, dictionaryFits, payloadFits⟩ := eq_layout_append_of_read found
  exact header.chunkSize_eq_ok dictionaryFits payloadFits

/-- A header is read in the same way from longer bytes. -/
theorem read_append (found : read bytes = .ok (header, rest)) (more : Bytes) :
    read (bytes ++ more) = .ok (header, rest ++ more) := by
  obtain ⟨valid, front, written, rfl⟩ := read_eq_ok_iff.mp found
  exact read_eq_ok_iff.mpr ⟨valid, front, written, List.append_assoc _ _ _⟩

end ChunkHeader

namespace Chunk

/-- Bytes that are a chunk with the given header for a reader of the expected number of
bytes. Behind the header stand exactly the dictionary and the payload that it declares, and
the payload decodes to the prepared bytes: with the dictionary if it has any bytes. -/
structure WellFormed (coders : Coders) (chunk : Bytes) (expected : Nat) (header : ChunkHeader)
    (prepared : Bytes) : Prop where
  begins : ∃ body, ChunkHeader.read chunk = .ok (header, body)
  declared : header.uncompressed.toNat = expected
  whole : chunk.length = ChunkHeader.byteSize + header.dictionary + header.payload
  plain : header.dictionary = 0 →
    coders.decompress expected (chunk.drop ChunkHeader.byteSize) = some prepared
  referring : header.dictionary ≠ 0 →
    coders.decompressWith ((chunk.drop ChunkHeader.byteSize).take header.dictionary) expected
      (chunk.drop (ChunkHeader.byteSize + header.dictionary)) = some prepared
  filled : prepared.length = expected

variable {coders : Coders} {chunk bytes prepared : Bytes} {expected : Nat} {header : ChunkHeader}

/-- The content of a frame in bytes that are long enough for the dictionary. -/
theorem unpackFrame_eq_some_iff {body : Bytes} {count : Nat} (enough : count ≤ body.length) :
    unpackFrame coders (body.take count) (body.drop count) expected = some prepared ↔
      (count = 0 → coders.decompress expected body = some prepared) ∧
        (count ≠ 0 →
          coders.decompressWith (body.take count) expected (body.drop count) = some prepared) := by
  by_cases without : count = 0
  · subst without
    simp [unpackFrame]
  · have some : (body.take count).isEmpty = false := by
      rw [List.isEmpty_eq_false_iff, ← List.length_pos_iff, List.length_take]
      omega
    simp [unpackFrame, some, without]

/-- Bytes are decoded exactly if they are a chunk of the expected number of bytes, and then
to what shuffling made the frame content of. -/
theorem decode_eq_ok_iff :
    decode coders chunk expected = .ok bytes ↔
      ∃ header prepared, WellFormed coders chunk expected header prepared ∧
        bytes = Shuffle.unshuffle header.parameters.typeSize prepared := by
  constructor
  · intro decoded
    obtain ⟨⟨header, body⟩, found, decoded⟩ := Outcome.bind_eq_ok_iff.mp decoded
    obtain ⟨declared, decoded⟩ := Outcome.guard_eq_ok_iff.mp decoded
    rw [ChunkHeader.chunkSize_of_read found, Outcome.ok_bind] at decoded
    obtain ⟨whole, decoded⟩ := Outcome.guard_eq_ok_iff.mp decoded
    dsimp only at decoded
    split at decoded
    · cases decoded
    · next prepared unpacked =>
      obtain ⟨filled, decoded⟩ := Outcome.guard_eq_ok_iff.mp decoded
      cases decoded
      have length := ChunkHeader.length_of_read found
      -- the size of the chunk was compared before its body is split
      have enough : header.dictionary ≤ body.length := by omega
      obtain ⟨plain, referring⟩ := (unpackFrame_eq_some_iff enough).mp unpacked
      rw [ChunkHeader.eq_drop_of_read found, List.drop_drop] at referring
      rw [ChunkHeader.eq_drop_of_read found] at plain
      exact ⟨header, prepared, ⟨⟨body, found⟩, not_not.mp declared, (not_not.mp whole).symm, plain,
        referring, not_not.mp filled⟩, rfl⟩
  · rintro ⟨header, prepared, ⟨⟨body, found⟩, declared, whole, plain, referring, filled⟩, rfl⟩
    have length := ChunkHeader.length_of_read found
    have behind := ChunkHeader.eq_drop_of_read found
    have enough : header.dictionary ≤ body.length := by omega
    have unpacked : unpackFrame coders (body.take header.dictionary)
        (body.drop header.dictionary) expected = some prepared := by
      rw [unpackFrame_eq_some_iff enough, behind, List.drop_drop]
      exact ⟨plain, referring⟩
    rw [decode, found, Outcome.ok_bind]
    dsimp only
    rw [if_neg (not_not.mpr declared), ChunkHeader.chunkSize_of_read found, Outcome.ok_bind,
      if_neg (not_not.mpr whole.symm), unpacked]
    exact if_neg (not_not.mpr filled)

/-- Of two chunks none goes on where the other ends. Both have the same header, and this
header declares their size. -/
theorem eq_of_decode_append {longer others : Bytes} {otherExpected : Nat}
    (decoded : decode coders chunk expected = .ok bytes)
    (decodedLonger : decode coders longer otherExpected = .ok others) (inside : chunk <+: longer) :
    chunk = longer := by
  obtain ⟨header, prepared, formed, -⟩ := decode_eq_ok_iff.mp decoded
  obtain ⟨other, content, formedLonger, -⟩ := decode_eq_ok_iff.mp decodedLonger
  obtain ⟨body, found⟩ := formed.begins
  obtain ⟨otherBody, foundLonger⟩ := formedLonger.begins
  have same : header = other := by
    obtain ⟨more, rfl⟩ := inside
    rw [ChunkHeader.read_append found] at foundLonger
    cases foundLonger
    rfl
  apply inside.eq_of_length
  rw [formed.whole, formedLonger.whole, same]

/-- Bytes that begin a chunk or go on behind it are invalid for every reader. -/
theorem invalid_of_shorter {other : Bytes} (decoded : decode coders chunk expected = .ok bytes)
    (inside : other <+: chunk ∨ chunk <+: other) (different : other ≠ chunk)
    (otherExpected : Nat) :
    ∃ cause, decode coders other otherExpected = .error (.invalid cause) := by
  refine (invalidAtWorst_decode coders other otherExpected).of_comparable ?_ inside different
  intro others found
  exact ⟨eq_of_decode_append found decoded, eq_of_decode_append decoded found⟩

/-- Bytes are decoded exactly if they are a chunk of as many bytes as the reader expects. Then
there are so many, and shuffling them gives the frame content. All other bytes are invalid.
No step on the way is without a result, above all not the split behind the dictionary.
Neither what begins a chunk nor what goes on behind one is a chunk for any reader. -/
theorem decode_wellFormed_iff (coders : Coders) :
    (∀ (chunk bytes : Bytes) (expected : Nat), decode coders chunk expected = .ok bytes ↔
      ∃ header prepared, WellFormed coders chunk expected header prepared ∧
        bytes = Shuffle.unshuffle header.parameters.typeSize prepared) ∧
    (∀ (chunk prepared : Bytes) (expected : Nat) (header : ChunkHeader),
      WellFormed coders chunk expected header prepared →
        ∃ bytes, decode coders chunk expected = .ok bytes ∧ bytes.length = expected ∧
          Shuffle.shuffle header.parameters.typeSize bytes = prepared) ∧
    (∀ (chunk : Bytes) (expected : Nat),
      (¬ ∃ header prepared, WellFormed coders chunk expected header prepared) →
        ∃ cause, decode coders chunk expected = .error (.invalid cause)) ∧
    (∀ (chunk : Bytes) (expected : Nat), expected < Size.bound →
      Checked.decodeChunk coders chunk expected =
        Checked.ofOutcome (decode coders chunk expected)) ∧
    (∀ (chunk other bytes : Bytes) (expected otherExpected : Nat),
      decode coders chunk expected = .ok bytes → (other <+: chunk ∨ chunk <+: other) →
        other ≠ chunk → ∃ cause, decode coders other otherExpected = .error (.invalid cause)) := by
  refine ⟨?_, ?_, ?_, ?_, ?_⟩
  · intro chunk bytes expected
    exact decode_eq_ok_iff
  · intro chunk prepared expected header formed
    have decoded := decode_eq_ok_iff.mpr ⟨header, prepared, formed, rfl⟩
    exact ⟨_, decoded, length_decode decoded, Shuffle.shuffle_unshuffle _ prepared⟩
  · intro chunk expected malformed
    rcases (invalidAtWorst_decode coders chunk expected).cases with ⟨bytes, decoded⟩ | failed
    · obtain ⟨header, prepared, formed, -⟩ := decode_eq_ok_iff.mp decoded
      exact absurd ⟨header, prepared, formed⟩ malformed
    · exact failed
  · intro chunk expected _
    exact Checked.decodeChunk_eq_ofOutcome coders chunk expected
  · intro chunk other bytes expected otherExpected decoded inside different
    exact invalid_of_shorter decoded inside different otherExpected

/-- A frame of two shuffled integers. -/
def referringFrame : Bytes :=
  [40, 181, 47, 253, 32, 8, 65, 0, 0, 7, 9, 0, 0, 0, 0, 0, 0]

/-- Coders that read this frame with any dictionary. -/
def referringCoders : Coders :=
  { (Coders.Recording.mk .empty .empty (by simp [Coders.Table.empty])).coders with
    decompressWith := fun _ limit frames =>
      Coders.Table.decode [([7, 9, 0, 0, 0, 0, 0, 0], referringFrame)] limit frames }

/-- The parameters, eight bytes of content, two bytes of dictionary, and the frame. -/
def referringHeader : ChunkHeader := ⟨⟨4, 5, .dictionary⟩, 8, 2, 17⟩

/-- The chunk with this header. -/
def referringChunk : Bytes := referringHeader.layout ++ [1, 2] ++ referringFrame

/-- The chunk is read with its dictionary, but only by readers of eight bytes, and neither with
a further byte nor without its frame. -/
theorem decode_wellFormed_iff_dictionary :
    (∃ bytes, decode referringCoders referringChunk 8 = .ok bytes ∧ bytes.length = 8 ∧
      Shuffle.shuffle 4 bytes = [7, 9, 0, 0, 0, 0, 0, 0]) ∧
    (∃ cause, decode referringCoders referringChunk 9 = .error (.invalid cause)) ∧
    Checked.decodeChunk referringCoders referringChunk 8 =
      Checked.ofOutcome (decode referringCoders referringChunk 8) ∧
    (∃ cause, decode referringCoders (referringChunk ++ [0]) 8 = .error (.invalid cause)) ∧
    ∃ cause, decode referringCoders (referringChunk.take 30) 0 = .error (.invalid cause) := by
  have formed : WellFormed referringCoders referringChunk 8 referringHeader
      [7, 9, 0, 0, 0, 0, 0, 0] :=
    ⟨⟨[1, 2] ++ referringFrame, rfl⟩, rfl, rfl, nofun, fun _ => rfl, rfl⟩
  have decoded : decode referringCoders referringChunk 8 = .ok [7, 0, 0, 0, 9, 0, 0, 0] := rfl
  have refused : (decode referringCoders referringChunk 9).toOption = none := rfl
  obtain ⟨accepts, content, invalid, checked, closed⟩ := decode_wellFormed_iff referringCoders
  refine ⟨content _ _ _ _ formed, invalid _ _ ?_, checked _ _ (by decide),
    closed _ _ _ _ 8 decoded (.inr (List.prefix_append _ _)) (by decide),
    closed _ _ _ _ 0 decoded (.inl (List.take_prefix _ _)) (by decide)⟩
  rintro ⟨header, prepared, other⟩
  rw [(accepts _ _ _).mpr ⟨header, prepared, other, rfl⟩] at refused
  cases refused

end Chunk

end PixelBlocks

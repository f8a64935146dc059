import PixelBlocks.Chunk
import PixelBlocks.Proofs.Chunk.Header
import PixelBlocks.Proofs.Transform.Shuffle
import PixelBlocks.Proofs.Transform.Truncation

/-!
# Chunks decode to what they were made of

A chunk that was written consists of its header, perhaps a dictionary, and a frame of
the prepared bytes. Everything that is said of reading follows from this shape: the
bytes come back settled, and no other size is accepted.
-/

namespace PixelBlocks.Chunk

/-- A dictionary and a payload that make up a chunk of the given bytes. -/
structure Written (coders : Coders) (parameters : ChunkParameters)
    (bytes chunk dictionary payload : Bytes) : Prop where
  valid : parameters.validate = .ok ()
  dictionaryFits : dictionary.length < 0x100000000
  payloadFits : payload.length < 0x100000000
  bounded : dictionary.length + payload.length ≤ coders.frameBound bytes.length
  filled : payload ≠ []
  unpacked : unpackFrame coders dictionary payload bytes.length = some (prepare parameters bytes)
  joined : chunk =
    (headerOf parameters bytes dictionary payload).layout ++ (dictionary ++ payload)

section Preparing

/-- Settling keeps the number of bytes. -/
@[simp] theorem length_settled (preprocessing : Preprocessing) (bytes : Bytes) :
    (settled preprocessing bytes).length = bytes.length := by
  cases preprocessing <;> simp [settled]

/-- Settled bytes are left alone. -/
@[simp] theorem settled_settled (preprocessing : Preprocessing) (bytes : Bytes) :
    settled preprocessing (settled preprocessing bytes) = settled preprocessing bytes := by
  cases preprocessing <;> simp [settled]

/-- Preparing keeps the number of bytes. -/
@[simp] theorem length_prepare (parameters : ChunkParameters) (bytes : Bytes) :
    (prepare parameters bytes).length = bytes.length := by
  simp [prepare]

end Preparing

section Writing

variable {coders : Coders} {parameters : ChunkParameters} {bytes chunk : Bytes}

/-- Either the plain frame is stored, or a smaller one with a trained dictionary. -/
theorem chooseFrame_cases (coders : Coders) (preprocessing : Preprocessing) (level : Int32)
    (prepared plain : Bytes) :
    chooseFrame coders preprocessing level prepared plain = ([], plain) ∨
      ∃ dictionary frame, preprocessing = .dictionary ∧
        chooseFrame coders preprocessing level prepared plain = (dictionary, frame) ∧
        coders.train dictionarySample (min (prepared.length / 8) largestDictionary) prepared =
          some dictionary ∧
        coders.compressWith dictionary level prepared = some frame ∧
        dictionary.length + frame.length < plain.length := by
  unfold chooseFrame
  by_cases tried : preprocessing = .dictionary ∧ dictionaryThreshold ≤ prepared.length
  · rw [if_pos tried]
    cases candidate : dictionaryCandidate? coders level prepared with
    | none => exact .inl rfl
    | some pair =>
      obtain ⟨dictionary, frame⟩ := pair
      by_cases smaller : dictionary.length + frame.length < plain.length
      · obtain ⟨trained, found, framed⟩ := Option.bind_eq_some_iff.mp candidate
        obtain ⟨content, compressed, same⟩ := Option.bind_eq_some_iff.mp framed
        cases same
        exact .inr ⟨dictionary, frame, tried.1, if_pos smaller, found, compressed, smaller⟩
      · exact .inl (if_neg smaller)
  · rw [if_neg tried]
    exact .inl rfl

/-- The stored frame decodes to the prepared bytes. -/
theorem unpackFrame_chooseFrame (frames : coders.FrameLaws)
    (dictionaries : parameters.preprocessing = .dictionary → coders.DictionaryLaws)
    {level : Int32} {prepared plain dictionary payload : Bytes}
    (compressed : coders.compress level prepared = some plain)
    (chosen : chooseFrame coders parameters.preprocessing level prepared plain =
      (dictionary, payload)) :
    unpackFrame coders dictionary payload prepared.length = some prepared := by
  rcases chooseFrame_cases coders parameters.preprocessing level prepared plain with
    kept | ⟨trained, frame, asked, taken, found, framed, smaller⟩
  · rw [kept] at chosen
    cases chosen
    exact frames.decompress_compress level _ prepared plain compressed (Nat.le_refl _)
  · rw [taken] at chosen
    cases chosen
    have laws := dictionaries asked
    have filled : dictionary.isEmpty = false :=
      List.isEmpty_eq_false_iff.mpr (laws.train_ne_nil _ _ _ _ found)
    rw [unpackFrame, filled]
    exact laws.decompressWith_compressWith dictionary level _ prepared payload framed
      (Nat.le_refl _)

/-- A chunk that was written has the shape of one. -/
theorem exists_written (frames : coders.FrameLaws)
    (dictionaries : parameters.preprocessing = .dictionary → coders.DictionaryLaws)
    (encoded : encode coders parameters bytes = .ok chunk) :
    ∃ dictionary payload, Written coders parameters bytes chunk dictionary payload := by
  obtain ⟨⟨⟩, valid, encoded⟩ := Outcome.bind_eq_ok_iff.mp encoded
  cases compressed : coders.compress (coders.levels.encoderLevel parameters.level)
      (prepare parameters bytes) with
  | none => simp [compressed] at encoded
  | some plain =>
    simp only [compressed] at encoded
    rcases chosen : chooseFrame coders parameters.preprocessing
      (coders.levels.encoderLevel parameters.level) (prepare parameters bytes) plain
      with ⟨dictionary, payload⟩
    rw [chosen] at encoded
    by_cases refused : payload.isEmpty ∨
        coders.frameBound (prepare parameters bytes).length < dictionary.length + payload.length
    · rw [if_pos refused] at encoded
      cases encoded
    · rw [if_neg refused] at encoded
      obtain ⟨size, sized, encoded⟩ := Outcome.bind_eq_ok_iff.mp encoded
      obtain ⟨front, written, joined⟩ := Outcome.bind_eq_ok_iff.mp encoded
      obtain ⟨⟨dictionaryFits, payloadFits⟩, rfl⟩ := ChunkHeader.encode_eq_ok_iff.mp written
      cases joined
      have unpacked := unpackFrame_chooseFrame frames dictionaries compressed chosen
      rw [length_prepare] at unpacked refused
      have filled : payload ≠ [] := fun none => refused (.inl (List.isEmpty_iff.mpr none))
      exact ⟨dictionary, payload, valid, dictionaryFits, payloadFits, by omega, filled, unpacked,
        List.append_assoc _ _ _⟩

/-- What is stored keeps the bound, and its frame is not empty. -/
theorem chooseFrame_bounds (frames : coders.FrameBounds)
    (dictionaries : parameters.preprocessing = .dictionary → coders.DictionaryLaws)
    {level : Int32} {prepared plain dictionary payload : Bytes}
    (compressed : coders.compress level prepared = some plain)
    (chosen : chooseFrame coders parameters.preprocessing level prepared plain =
      (dictionary, payload)) :
    payload ≠ [] ∧ dictionary.length + payload.length ≤ coders.frameBound prepared.length := by
  obtain ⟨filled, bounded⟩ := frames.compress_bounds level prepared plain compressed
  rcases chooseFrame_cases coders parameters.preprocessing level prepared plain with
    kept | ⟨trained, frame, asked, taken, -, framed, smaller⟩
  · rw [kept] at chosen
    cases chosen
    exact ⟨List.ne_nil_of_length_pos filled, by simpa using bounded⟩
  · rw [taken] at chosen
    cases chosen
    exact ⟨(dictionaries asked).compressWith_ne_nil _ _ _ _ framed, by omega⟩

/-- The dictionary and the frame that a chunk of the bytes stores. -/
def stored (coders : Coders) (parameters : ChunkParameters) (bytes : Bytes) :
    Option (Bytes × Bytes) :=
  let level := coders.levels.encoderLevel parameters.level
  (coders.compress level (prepare parameters bytes)).map
    (chooseFrame coders parameters.preprocessing level (prepare parameters bytes))

/-- Valid parameters and sizes that fit into the header are all that writing needs. -/
theorem exists_encode_of_stored (frames : coders.FrameBounds)
    (dictionaries : parameters.preprocessing = .dictionary → coders.DictionaryLaws)
    (valid : parameters.validate = .ok ())
    (fits : ∀ dictionary payload, stored coders parameters bytes = some (dictionary, payload) →
      dictionary.length < 0x100000000 ∧ payload.length < 0x100000000) :
    ∃ chunk, encode coders parameters bytes = .ok chunk := by
  have framed := frames.compress_isSome (coders.levels.encoderLevel parameters.level)
    (prepare parameters bytes)
  obtain ⟨plain, compressed⟩ := Option.isSome_iff_exists.mp framed
  rcases chosen : chooseFrame coders parameters.preprocessing
    (coders.levels.encoderLevel parameters.level) (prepare parameters bytes) plain
    with ⟨dictionary, payload⟩
  have kept : stored coders parameters bytes = some (dictionary, payload) := by
    rw [stored, compressed, Option.map_some, chosen]
  obtain ⟨dictionaryFits, payloadFits⟩ := fits dictionary payload kept
  obtain ⟨present, bounded⟩ := chooseFrame_bounds frames dictionaries compressed chosen
  have accepted : ¬ (payload.isEmpty ∨
      coders.frameBound (prepare parameters bytes).length <
        dictionary.length + payload.length) := by
    simp only [List.isEmpty_iff, present, false_or]
    omega
  have sized := ChunkHeader.chunkSize_eq_ok (headerOf parameters bytes dictionary payload)
    dictionaryFits payloadFits
  have written : (headerOf parameters bytes dictionary payload).encode =
      .ok (headerOf parameters bytes dictionary payload).layout :=
    ChunkHeader.encode_eq_ok_iff.mpr ⟨⟨dictionaryFits, payloadFits⟩, rfl⟩
  refine ⟨(headerOf parameters bytes dictionary payload).layout ++ dictionary ++ payload, ?_⟩
  simp only [encode, valid, Outcome.ok_bind, compressed, chosen]
  rw [if_neg accepted, sized, Outcome.ok_bind, written]
  rfl

/-- A bound that fits into the header suffices, since what is stored keeps it. -/
theorem exists_encode (frames : coders.FrameBounds)
    (dictionaries : parameters.preprocessing = .dictionary → coders.DictionaryLaws)
    (valid : parameters.validate = .ok ()) (fits : coders.frameBound bytes.length < 0x100000000) :
    ∃ chunk, encode coders parameters bytes = .ok chunk := by
  apply exists_encode_of_stored frames dictionaries valid
  intro dictionary payload kept
  obtain ⟨plain, compressed, chosen⟩ := Option.map_eq_some_iff.mp kept
  have bounded := (chooseFrame_bounds frames dictionaries compressed chosen).2
  rw [length_prepare] at bounded
  omega

/-- A dictionary is far smaller than its size field allows. -/
theorem length_dictionary_lt (training : coders.TrainingLimit) {dictionary payload : Bytes}
    (kept : stored coders parameters bytes = some (dictionary, payload)) :
    dictionary.length < 0x100000000 := by
  obtain ⟨plain, -, chosen⟩ := Option.map_eq_some_iff.mp kept
  rcases chooseFrame_cases coders parameters.preprocessing
      (coders.levels.encoderLevel parameters.level) (prepare parameters bytes) plain with
    unchanged | ⟨trained, frame, -, taken, found, -, -⟩
  · rw [unchanged] at chosen
    cases chosen
    decide
  · rw [taken] at chosen
    cases chosen
    have limited := training.length_train _ _ _ _ found
    simp only [largestDictionary] at limited
    omega

/-- Nothing but preprocessing with a dictionary stores one. -/
theorem dictionary_eq_nil (plain : parameters.preprocessing ≠ .dictionary)
    {dictionary payload : Bytes}
    (kept : stored coders parameters bytes = some (dictionary, payload)) : dictionary = [] := by
  obtain ⟨frame, -, chosen⟩ := Option.map_eq_some_iff.mp kept
  rcases chooseFrame_cases coders parameters.preprocessing
      (coders.levels.encoderLevel parameters.level) (prepare parameters bytes) frame with
    unchanged | ⟨_, _, asked, _⟩
  · rw [unchanged] at chosen
    cases chosen
    rfl
  · exact absurd asked plain

/-- Settled bytes are prepared as the bytes themselves are. -/
theorem prepare_settled (parameters : ChunkParameters) (bytes : Bytes) :
    prepare parameters (settled parameters.preprocessing bytes) = prepare parameters bytes := by
  rw [prepare, prepare, settled_settled]

/-- Settled bytes have the same chunk. -/
theorem encode_settled (coders : Coders) (parameters : ChunkParameters) (bytes : Bytes) :
    encode coders parameters (settled parameters.preprocessing bytes) =
      encode coders parameters bytes := by
  simp only [encode, headerOf, prepare_settled, length_settled]

end Writing

section Reading

/-- The header declares the number of bytes. -/
theorem toNat_uncompressed (parameters : ChunkParameters) {bytes : Bytes}
    (sized : bytes.length < Size.bound) (dictionary payload : Bytes) :
    (headerOf parameters bytes dictionary payload).uncompressed.toNat = bytes.length := by
  have word : bytes.length < UInt64.size := by
    rwa [Size.bound] at sized
  rw [headerOf, UInt64.toNat_ofNat_of_lt' word]

/-- A decoded chunk has exactly the expected number of bytes. -/
theorem length_decode {coders : Coders} {chunk bytes : Bytes} {expected : Nat}
    (decoded : decode coders chunk expected = .ok bytes) : bytes.length = expected := by
  obtain ⟨⟨header, body⟩, -, decoded⟩ := Outcome.bind_eq_ok_iff.mp decoded
  obtain ⟨-, decoded⟩ := Outcome.guard_eq_ok_iff.mp decoded
  obtain ⟨declared, -, decoded⟩ := Outcome.bind_eq_ok_iff.mp decoded
  obtain ⟨-, decoded⟩ := Outcome.guard_eq_ok_iff.mp decoded
  dsimp only at decoded
  split at decoded
  · cases decoded
  · obtain ⟨whole, decoded⟩ := Outcome.guard_eq_ok_iff.mp decoded
    cases decoded
    rw [Shuffle.length_unshuffle, Decidable.not_not.mp whole]

namespace Written

variable {coders : Coders} {parameters : ChunkParameters}
variable {bytes chunk dictionary payload : Bytes}

/-- A chunk takes no more than its bound. -/
theorem length_le (written : Written coders parameters bytes chunk dictionary payload) :
    chunk.length ≤ bound coders bytes.length := by
  have bounded := written.bounded
  rw [written.joined, bound, ChunkHeader.chunkBound]
  simp only [List.length_append, ChunkHeader.length_layout]
  omega

/-- A chunk holds more than its header, whose frame is not empty. -/
theorem lt_length (written : Written coders parameters bytes chunk dictionary payload) :
    ChunkHeader.byteSize < chunk.length := by
  have filled := List.length_pos_iff.mpr written.filled
  rw [written.joined]
  simp only [List.length_append, ChunkHeader.length_layout]
  omega

/-- The header declares the size of the chunk. -/
theorem chunkSize_eq (written : Written coders parameters bytes chunk dictionary payload) :
    (headerOf parameters bytes dictionary payload).chunkSize = .ok chunk.length := by
  have whole : ChunkHeader.byteSize + dictionary.length + payload.length = chunk.length := by
    rw [written.joined]
    simp only [List.length_append, ChunkHeader.length_layout]
    omega
  rw [← whole]
  exact ChunkHeader.chunkSize_eq_ok _ written.dictionaryFits written.payloadFits

/-- The header is read back, and dictionary and payload are left. -/
theorem read_eq (written : Written coders parameters bytes chunk dictionary payload) :
    ChunkHeader.read chunk =
      .ok (headerOf parameters bytes dictionary payload, dictionary ++ payload) := by
  obtain ⟨valid, dictionaryFits, payloadFits, -, -, -, joined⟩ := written
  rw [joined]
  apply ChunkHeader.read_layout_append
  · exact valid
  · exact dictionaryFits
  · exact payloadFits

/-- A size that is not that of the bytes is refused. -/
theorem decode_other (written : Written coders parameters bytes chunk dictionary payload)
    (sized : bytes.length < Size.bound) {expected : Nat} (other : expected ≠ bytes.length) :
    decode coders chunk expected =
      .error (.invalid (.chunkContent bytes.length expected)) := by
  have declared := toNat_uncompressed parameters sized dictionary payload
  rw [decode, written.read_eq, Outcome.ok_bind]
  simp only [declared]
  rw [if_pos (Ne.symm other)]

/-- The bytes come back settled. -/
theorem decode_eq (written : Written coders parameters bytes chunk dictionary payload)
    (sized : bytes.length < Size.bound) :
    decode coders chunk bytes.length = .ok (settled parameters.preprocessing bytes) := by
  have declared := toNat_uncompressed parameters sized dictionary payload
  have front : (dictionary ++ payload).take dictionary.length = dictionary :=
    List.take_left' rfl
  have back : (dictionary ++ payload).drop dictionary.length = payload :=
    List.drop_left' rfl
  rw [decode, written.read_eq, Outcome.ok_bind]
  simp only [declared, ne_eq, not_true_eq_false, if_false, written.chunkSize_eq, Outcome.ok_bind]
  simp only [headerOf, not_true_eq_false, if_false, front, back, written.unpacked,
    length_prepare]
  rw [prepare, Shuffle.unshuffle_shuffle]

end Written

end Reading

end PixelBlocks.Chunk

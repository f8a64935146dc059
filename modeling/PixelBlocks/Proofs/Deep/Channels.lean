import PixelBlocks.Proofs.Buffers
import PixelBlocks.Proofs.Chunk
import PixelBlocks.Proofs.Deep
import PixelBlocks.Proofs.Deep.Envelope
import PixelBlocks.Proofs.Schedule

/-!
# Envelopes of channels

The envelope of a block holds one chunk for each channel, which is made of the piece of
this channel. Nothing in it says which channel a chunk belongs to. But each chunk says
how large its piece is and how it was prepared, and every sample type is prepared in its
own way. So a reader that expects another sequence of sample types, or another number of
samples, meets a chunk that it refuses.
-/

namespace PixelBlocks.DeepCompressor

/-- A chunk that was made of a piece, with the parameters of its type. -/
def Holds (coders : Coders) (level : UInt8) (piece : Piece) (chunk : Bytes) : Prop :=
  ∃ dictionary payload, Chunk.Written coders (.ofSampleType piece.type level) piece.bytes chunk
    dictionary payload

/-- An envelope that encloses a chunk of each piece, in order. -/
def Encloses (coders : Coders) (level : UInt8) (pieces : List Piece) (envelope : Bytes) : Prop :=
  ∃ chunks, List.Forall₂ (Holds coders level) pieces chunks ∧
    (∀ chunk ∈ chunks, chunk.length < 0x80000000) ∧
    envelope = Scalar.int32.encode Envelope.version ++ Envelope.layout chunks

section Writing

variable {coders : Coders} {schedule : Schedule} {level : UInt8} {samples : Bytes}
variable {ranges : List ChannelRange}

/-- An envelope that was written encloses the pieces of its ranges, whatever the schedule
was. -/
theorem encloses_encodeChannels (frames : coders.FrameLaws) (dictionaries : coders.DictionaryLaws)
    {envelope : Bytes}
    (encoded : encodeChannels coders schedule level samples ranges = .ok envelope) :
    Encloses coders level (ranges.map (ChannelRange.piece samples)) envelope := by
  obtain ⟨chunks, compressed, enveloped⟩ := Outcome.bind_eq_ok_iff.mp encoded
  rw [channelChunks, Schedule.runAll_eq_mapM, Outcome.mapM_eq_ok_iff] at compressed
  obtain ⟨fits, joined⟩ := Envelope.encode_eq_ok_iff.mp enveloped
  refine ⟨chunks, ?_, fits, joined⟩
  rw [List.forall₂_map_left_iff]
  apply compressed.imp
  intro range chunk written
  exact Chunk.exists_written frames (fun _ => dictionaries) written

/-- Pieces whose chunks fit into an envelope can be written. -/
theorem exists_encodeChannels (schedule : Schedule) (frames : coders.FrameLaws)
    (total : coders.FrameBounds) (dictionaries : coders.DictionaryLaws)
    (acceptable : 1 ≤ level ∧ level ≤ 9)
    (fits : ∀ range ∈ ranges, Chunk.bound coders (range.slice samples).length < 0x80000000) :
    ∃ envelope, encodeChannels coders schedule level samples ranges = .ok envelope := by
  have written : ∀ range ∈ ranges, ∃ chunk,
      Chunk.encode coders (.ofSampleType range.type level) (range.slice samples) = .ok chunk ∧
        chunk.length < 0x80000000 := by
    intro range member
    have small := fits range member
    have frame : coders.frameBound (range.slice samples).length < 0x100000000 := by
      simp only [Chunk.bound, ChunkHeader.chunkBound] at small
      omega
    obtain ⟨chunk, encoded⟩ := Chunk.exists_encode total (fun _ => dictionaries)
      (ChunkParameters.validate_ofSampleType range.type acceptable) frame
    obtain ⟨dictionary, payload, shape⟩ :=
      Chunk.exists_written frames (fun _ => dictionaries) encoded
    exact ⟨chunk, encoded, Nat.lt_of_le_of_lt shape.length_le small⟩
  choose! image compressed short using written
  have all := Outcome.mapM_eq_ok_map compressed
  have shorts : ∀ chunk ∈ ranges.map image, chunk.length < 0x80000000 := by
    intro chunk member
    obtain ⟨range, inside, rfl⟩ := List.mem_map.mp member
    exact short range inside
  refine ⟨Scalar.int32.encode Envelope.version ++ Envelope.layout (ranges.map image), ?_⟩
  rw [encodeChannels, channelChunks, Schedule.runAll_eq_mapM, all, Outcome.ok_bind]
  exact Envelope.encode_eq_ok_iff.mpr ⟨shorts, rfl⟩

end Writing

section Reading

variable {coders : Coders} {level : UInt8} {piece : Piece} {chunk : Bytes}

/-- Every sample type is prepared in its own way. -/
theorem ofSampleType_injective {first second : SampleType}
    (same : Preprocessing.ofSampleType first = .ofSampleType second) : first = second := by
  cases first <;> cases second <;> first | rfl | cases same

/-- Only a reader that expects the type of a chunk decodes it. -/
theorem decodeChunk_written {dictionary payload : Bytes}
    (written : Chunk.Written coders (.ofSampleType piece.type level) piece.bytes chunk
      dictionary payload) (type : SampleType) (size : Nat) :
    decodeChunk coders ⟨type, size, chunk⟩ =
      if type = piece.type then Chunk.decode coders chunk size
      else .error (.invalid (.envelopeChunkType type)) := by
  rw [decodeChunk, written.read_eq, Outcome.ok_bind]
  by_cases same : type = piece.type
  · rw [if_pos same]
    exact if_neg (by simp [Chunk.headerOf, ChunkParameters.ofSampleType, same])
  · rw [if_neg same]
    exact if_pos (.inl fun prepared => same (ofSampleType_injective prepared).symm)

/-- A chunk is decoded by a reader that expects its type and its size. -/
theorem decodeChunk_eq (holds : Holds coders level piece chunk)
    (word : piece.bytes.length < Size.bound) :
    decodeChunk coders ⟨piece.type, piece.bytes.length, chunk⟩ = .ok piece.settle.bytes := by
  obtain ⟨dictionary, payload, written⟩ := holds
  rw [decodeChunk_written written, if_pos rfl, written.decode_eq word, piece.bytes_settle]
  rfl

/-- A chunk is refused by a reader that expects another type or another size. -/
theorem decodeChunk_other (holds : Holds coders level piece chunk)
    (word : piece.bytes.length < Size.bound) {type : SampleType} {size : Nat}
    (other : ¬ (type = piece.type ∧ size = piece.bytes.length)) :
    ∃ cause, decodeChunk coders ⟨type, size, chunk⟩ = .error (.invalid cause) := by
  obtain ⟨dictionary, payload, written⟩ := holds
  rw [decodeChunk_written written]
  by_cases same : type = piece.type
  · have resized : size ≠ piece.bytes.length := fun equal => other ⟨same, equal⟩
    rw [if_pos same]
    exact ⟨_, written.decode_other word resized⟩
  · rw [if_neg same]
    exact ⟨_, rfl⟩

/-- What a reader of the given channels and number of samples expects of chunks. -/
def expected (total : Nat) (channels : ChannelList) (chunks : List Bytes) : List ExpectedChunk :=
  (channels.zip chunks).map fun (channel, chunk) =>
    ⟨channel.type, total * channel.type.byteSize, chunk⟩

/-- The first chunk belongs to the first channel. -/
theorem expected_cons (total : Nat) (channel : Channel) (others : ChannelList) (chunk : Bytes)
    (chunks : List Bytes) :
    expected total (channel :: others) (chunk :: chunks) =
      ⟨channel.type, total * channel.type.byteSize, chunk⟩ :: expected total others chunks := rfl

/-- The sizes that a reader expects are sizes. -/
theorem expectChunks_eq {total : Nat} (small : total < 0x80000000) (channels : ChannelList)
    (chunks : List Bytes) :
    expectChunks total channels chunks = .ok (expected total channels chunks) := by
  apply Outcome.mapM_eq_ok_map
  rintro ⟨channel, chunk⟩ -
  have narrow : channel.type.byteSize ≤ 4 := by cases channel.type <;> decide
  have fits : total * channel.type.byteSize < Size.bound := by
    have product := Nat.mul_le_mul (Nat.le_of_lt small) narrow
    simp only [Size.bound]
    omega
  simp only [Size.mul?_eq_some_iff.mpr ⟨fits, rfl⟩]

variable {written total : Nat} {pieces : List Piece} {chunks : List Bytes}

/-- A reader of the right sample types and the right number of samples decodes every
chunk. -/
theorem mapM_decodeChunk (holds : List.Forall₂ (Holds coders level) pieces chunks)
    (sizes : ∀ piece ∈ pieces, piece.bytes.length = written * piece.type.byteSize)
    (word : ∀ piece ∈ pieces, piece.bytes.length < Size.bound) {channels : ChannelList}
    (types : channels.map Channel.type = pieces.map Piece.type) :
    (expected written channels chunks).mapM (decodeChunk coders) =
      .ok (pieces.map fun piece => piece.settle.bytes) := by
  induction holds generalizing channels with
  | nil =>
    have none : channels = [] := List.map_eq_nil_iff.mp types
    rw [none]
    rfl
  | @cons piece chunk pieces chunks here later inductionHypothesis =>
    obtain ⟨sized, sizedLater⟩ := List.forall_mem_cons.mp sizes
    obtain ⟨fits, fitsLater⟩ := List.forall_mem_cons.mp word
    cases channels with
    | nil => cases types
    | cons channel others =>
      obtain ⟨type, typesLater⟩ := List.cons.inj types
      have first : decodeChunk coders
          ⟨channel.type, written * channel.type.byteSize, chunk⟩ = .ok piece.settle.bytes := by
        rw [type, ← sized]
        exact decodeChunk_eq here fits
      have rest := inductionHypothesis sizedLater fitsLater typesLater
      rw [expected_cons, List.mapM_cons, first, Outcome.ok_bind, rest]
      rfl

/-- A reader of other sample types or another number of samples refuses a chunk. The
induction is on the chunks: the first one is refused unless it agrees in type and size,
and then the number of samples is right and the types behind it are wrong. -/
theorem mapM_decodeChunk_other (holds : List.Forall₂ (Holds coders level) pieces chunks)
    (sizes : ∀ piece ∈ pieces, piece.bytes.length = written * piece.type.byteSize)
    (word : ∀ piece ∈ pieces, piece.bytes.length < Size.bound) {channels : ChannelList}
    (counted : channels.length = pieces.length)
    (other : channels.map Channel.type ≠ pieces.map Piece.type ∨ total ≠ written ∧ pieces ≠ []) :
    ∃ cause, (expected total channels chunks).mapM (decodeChunk coders) =
      .error (.invalid cause) := by
  induction holds generalizing channels with
  | nil =>
    have none : channels = [] := List.eq_nil_of_length_eq_zero counted
    simp [none] at other
  | @cons piece chunk pieces chunks here later inductionHypothesis =>
    obtain ⟨sized, sizedLater⟩ := List.forall_mem_cons.mp sizes
    obtain ⟨fits, fitsLater⟩ := List.forall_mem_cons.mp word
    cases channels with
    | nil => cases counted
    | cons channel others =>
      by_cases agree : channel.type = piece.type ∧
          total * channel.type.byteSize = piece.bytes.length
      · obtain ⟨type, size⟩ := agree
        -- no sample is empty, so equal sizes are sizes of equally many samples
        have same : total = written := by
          rw [type, sized] at size
          exact Nat.eq_of_mul_eq_mul_right piece.type.byteSize_pos size
        have differ : others.map Channel.type ≠ pieces.map Piece.type := by
          rcases other with types | ⟨samples, -⟩
          · intro equal
            exact types (by rw [List.map_cons, List.map_cons, type, equal])
          · exact absurd same samples
        have first : decodeChunk coders
            ⟨channel.type, total * channel.type.byteSize, chunk⟩ = .ok piece.settle.bytes := by
          rw [size, type]
          exact decodeChunk_eq here fits
        obtain ⟨cause, failed⟩ := inductionHypothesis sizedLater fitsLater
          (Nat.succ.inj counted) (.inl differ)
        refine ⟨cause, ?_⟩
        rw [expected_cons, List.mapM_cons, first, Outcome.ok_bind, failed]
        rfl
      · obtain ⟨cause, failed⟩ := decodeChunk_other here fits agree
        refine ⟨cause, ?_⟩
        rw [expected_cons, List.mapM_cons, failed]
        rfl

variable {envelope : Bytes}

/-- A reader of the right channels and number of samples gets the settled pieces. -/
theorem decodeChannels_eq (schedule : Schedule)
    (encloses : Encloses coders level pieces envelope) (small : written < 0x80000000)
    (sizes : ∀ piece ∈ pieces, piece.bytes.length = written * piece.type.byteSize)
    (word : ∀ piece ∈ pieces, piece.bytes.length < Size.bound) {channels : ChannelList}
    (types : channels.map Channel.type = pieces.map Piece.type) :
    decodeChannels coders schedule channels envelope written =
      .ok (pieces.map fun piece => piece.settle.bytes).flatten := by
  obtain ⟨chunks, holds, short, rfl⟩ := encloses
  have counted : channels.length = chunks.length := by
    have lengths := congrArg List.length types
    rw [List.length_map, List.length_map] at lengths
    exact lengths.trans holds.length_eq
  rw [decodeChannels, Envelope.decode_layout, counted, Envelope.decodeChunks_layout short,
    Outcome.ok_bind, expectChunks_eq small, Outcome.ok_bind, Schedule.runAll_eq_mapM,
    mapM_decodeChunk holds sizes word types]
  rfl

/-- A reader of other channels or another number of samples gets nothing. -/
theorem decodeChannels_other (schedule : Schedule)
    (encloses : Encloses coders level pieces envelope) (small : total < 0x80000000)
    (sizes : ∀ piece ∈ pieces, piece.bytes.length = written * piece.type.byteSize)
    (word : ∀ piece ∈ pieces, piece.bytes.length < Size.bound) {channels : ChannelList}
    (other : channels.map Channel.type ≠ pieces.map Piece.type ∨ total ≠ written ∧ pieces ≠ []) :
    ∃ cause, decodeChannels coders schedule channels envelope total =
      .error (.invalid cause) := by
  obtain ⟨chunks, holds, short, rfl⟩ := encloses
  rw [decodeChannels, Envelope.decode_layout]
  by_cases counted : channels.length = chunks.length
  · obtain ⟨cause, failed⟩ := mapM_decodeChunk_other holds sizes word
      (counted.trans holds.length_eq.symm) other
    refine ⟨cause, ?_⟩
    rw [counted, Envelope.decodeChunks_layout short, Outcome.ok_bind, expectChunks_eq small,
      Outcome.ok_bind, Schedule.runAll_eq_mapM, failed]
    rfl
  · obtain ⟨cause, failed⟩ := Envelope.decodeChunks_other short counted
    exact ⟨cause, by rw [failed]; rfl⟩

end Reading

end PixelBlocks.DeepCompressor

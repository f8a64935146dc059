import PixelBlocks.Proofs.Corruption
import PixelBlocks.Proofs.Deep.RoundTrip

/-!
# Corrupt deep blocks are refused

An envelope that can be read is described here without the reader: the version, and one
sized chunk for each channel that was written for its sample type and decodes to its
number of samples, with nothing behind the last. The reader accepts these envelopes, and
gives what their chunks decode to. Everything else is invalid and leaves no bytes behind,
and so are offset tables that no block has.
-/

namespace PixelBlocks.DeepCompressor

section Chunks

/-- A chunk with the samples of a channel: its header names the preparation and the size
that suit the type of the channel, and it decodes to that many samples. -/
structure ChunkOf (coders : Coders) (total : Nat) (type : SampleType) (chunk piece : Bytes) :
    Prop where
  header : ∃ header body, ChunkHeader.read chunk = .ok (header, body) ∧
    header.parameters.preprocessing = .ofSampleType type ∧
    header.parameters.typeSize = type.byteSize
  decoded : Chunk.decode coders chunk (total * type.byteSize) = .ok piece
  counted : piece.length = total * type.byteSize

/-- Bytes that hold a sized chunk for every channel in order and nothing else, together
with the samples of all channels. -/
inductive Samples (coders : Coders) (total : Nat) : ChannelList → (body samples : Bytes) → Prop
  | none : Samples coders total [] [] []
  | channel {channel : Channel} {others : ChannelList} {size : Int32}
      {chunk piece body samples : Bytes} (sized : size.toInt = chunk.length)
      (holds : ChunkOf coders total channel.type chunk piece)
      (rest : Samples coders total others body samples) :
      Samples coders total (channel :: others) (Scalar.int32.encode size ++ (chunk ++ body))
        (piece ++ samples)

variable {coders : Coders} {total : Nat}

/-- There are as many samples of every channel. -/
theorem Samples.length_eq {channels : ChannelList} {body samples : Bytes}
    (holds : Samples coders total channels body samples) :
    samples.length = total * channels.bytesPerPixel := by
  induction holds with
  | none => rfl
  | channel sized holds rest inductionHypothesis =>
    rw [List.length_append, holds.counted, inductionHypothesis, ChannelList.bytesPerPixel,
      Nat.mul_add]

/-- A chunk is decoded exactly if it holds the samples of the expected type. -/
theorem decodeChunk_eq_ok_iff {type : SampleType} {chunk piece : Bytes} :
    decodeChunk coders ⟨type, total * type.byteSize, chunk⟩ = .ok piece ↔
      ChunkOf coders total type chunk piece := by
  constructor
  · intro decoded
    obtain ⟨⟨header, body⟩, found, decoded⟩ := Outcome.bind_eq_ok_iff.mp decoded
    obtain ⟨named, decoded⟩ := Outcome.guard_eq_ok_iff.mp decoded
    rw [not_or, not_not, not_not] at named
    exact ⟨⟨header, body, found, named⟩, decoded, Chunk.length_decode decoded⟩
  · rintro ⟨⟨header, body, found, prepared, sized⟩, decoded, -⟩
    rw [decodeChunk, found, Outcome.ok_bind]
    simp only [prepared, sized, ne_eq, not_true_eq_false, or_self, if_false, decoded]

/-- Chunks that are decoded one for each channel are the sized chunks of their layout. The
induction takes one channel and its chunk at a time. -/
theorem samples_iff {channels : ChannelList} {body samples : Bytes} :
    Samples coders total channels body samples ↔
      ∃ chunks pieces, chunks.length = channels.length ∧
        (∀ chunk ∈ chunks, chunk.length < 0x80000000) ∧ body = Envelope.layout chunks ∧
        (expected total channels chunks).mapM (decodeChunk coders) = .ok pieces ∧
        samples = pieces.flatten := by
  constructor
  · intro holds
    induction holds with
    | none => exact ⟨[], [], rfl, by simp, rfl, rfl, rfl⟩
    | @channel channel others size chunk piece body samples sized holds rest inductionHypothesis =>
      obtain ⟨chunks, pieces, counted, fits, rfl, decoded, rfl⟩ := inductionHypothesis
      have small := size.toInt_lt
      have word : Int32.ofNat chunk.length = size := by
        apply Int32.toInt_inj.mp
        rw [Int32.toInt_ofNat_of_lt (by omega), sized]
      refine ⟨chunk :: chunks, piece :: pieces, congrArg (· + 1) counted,
        List.forall_mem_cons.mpr ⟨by omega, fits⟩, ?_, ?_, rfl⟩
      · rw [Envelope.layout, Envelope.layout, List.flatMap_cons, Envelope.sized, word,
          List.append_assoc]
      · rw [expected_cons, List.mapM_cons, decodeChunk_eq_ok_iff.mpr holds, Outcome.ok_bind,
          decoded]
        rfl
  · rintro ⟨chunks, pieces, counted, fits, rfl, decoded, rfl⟩
    induction channels generalizing chunks pieces with
    | nil =>
      cases List.eq_nil_of_length_eq_zero counted
      cases decoded
      exact .none
    | cons channel others inductionHypothesis =>
      cases chunks with
      | nil => cases counted
      | cons chunk chunks =>
        obtain ⟨here, later⟩ := List.forall_mem_cons.mp fits
        rw [expected_cons, List.mapM_cons] at decoded
        obtain ⟨piece, first, decoded⟩ := Outcome.bind_eq_ok_iff.mp decoded
        obtain ⟨rest, behind, same⟩ := Outcome.bind_eq_ok_iff.mp decoded
        cases same
        have sized : (Int32.ofNat chunk.length).toInt = chunk.length :=
          Int32.toInt_ofNat_of_lt here
        have front := Samples.channel sized (decodeChunk_eq_ok_iff.mp first)
          (inductionHypothesis chunks rest (Nat.succ.inj counted) later behind)
        rw [Envelope.layout, List.flatMap_cons, Envelope.sized, List.append_assoc]
        exact front

/-- A chunk of another type or size, or with bytes that no chunk has, is invalid. -/
theorem invalidAtWorst_decodeChunk (coders : Coders) (expected : ExpectedChunk) :
    Outcome.InvalidAtWorst (decodeChunk coders expected) :=
  (ChunkHeader.invalidAtWorst_read _).bind fun _ _ =>
    .guard fun _ => Chunk.invalidAtWorst_decode _ _ _

end Chunks

section Blocks

variable {coders : Coders} {layer : Layer} {compressor : DeepCompressor}

/-- The samples of an envelope are those that its chunks hold. -/
theorem decodeChannels_eq_ok_iff (schedule : Schedule) {total : Nat} (small : total < 0x80000000)
    {channels : ChannelList} {envelope samples : Bytes} :
    decodeChannels coders schedule channels envelope total = .ok samples ↔
      ∃ body, envelope = Scalar.int32.encode Envelope.version ++ body ∧
        Samples coders total channels body samples := by
  constructor
  · intro decoded
    obtain ⟨chunks, cut, decoded⟩ := Outcome.bind_eq_ok_iff.mp decoded
    rw [expectChunks_eq small, Outcome.ok_bind, Schedule.runAll_eq_mapM] at decoded
    obtain ⟨pieces, behind, same⟩ := Outcome.bind_eq_ok_iff.mp decoded
    cases same
    obtain ⟨counted, fits, rfl⟩ := Envelope.decode_eq_ok_iff.mp cut
    exact ⟨_, rfl, samples_iff.mpr ⟨chunks, pieces, counted, fits, rfl, behind, rfl⟩⟩
  · rintro ⟨body, rfl, holds⟩
    obtain ⟨chunks, pieces, counted, fits, rfl, behind, rfl⟩ := samples_iff.mp holds
    rw [decodeChannels, Envelope.decode_eq_ok_iff.mpr ⟨counted, fits, rfl⟩, Outcome.ok_bind,
      expectChunks_eq small, Outcome.ok_bind, Schedule.runAll_eq_mapM, behind]
    rfl

/-- An envelope is read or invalid. -/
theorem invalidAtWorst_decodeChannels (coders : Coders) (schedule : Schedule)
    (channels : ChannelList) (envelope : Bytes) {total : Nat} (small : total < 0x80000000) :
    Outcome.InvalidAtWorst (decodeChannels coders schedule channels envelope total) := by
  refine (Envelope.invalidAtWorst_decode _ _).bind fun chunks _ => ?_
  rw [expectChunks_eq small, Outcome.ok_bind, Schedule.runAll_eq_mapM]
  refine Outcome.InvalidAtWorst.bind ?_ fun _ _ => Outcome.invalidAtWorst_ok _
  exact .mapM fun expected _ => invalidAtWorst_decodeChunk coders expected

/-- What a byte method makes of stored bytes that are not raw. -/
def formOf (coders : Coders) (method : Method) (stored : Bytes) (expected : Nat) :
    Outcome Bytes :=
  match method with
  | .runLength => RunLength.decompress expected stored
  | .zipLine => FlatCompressor.decodeZip coders stored expected
  | _ => .error (.invalid (.deepDataLength stored.length expected))

/-- Stored bytes are raw if they have the expected length, and otherwise decoded to it. -/
theorem unpackBytes_eq (coders : Coders) (method : Method) (stored : Bytes) (expected : Nat) :
    unpackBytes coders method stored expected =
      .exactly stored expected (formOf coders method stored expected)
        (.decodedDeepLength method) := by
  cases method <;> rfl

/-- Bytes of the byte methods are unpacked or invalid. -/
theorem invalidAtWorst_unpackBytes (coders : Coders) (method : Method) (stored : Bytes)
    (expected : Nat) : Outcome.InvalidAtWorst (unpackBytes coders method stored expected) := by
  have formed : Outcome.InvalidAtWorst (formOf coders method stored expected) := by
    unfold formOf
    split
    · exact RunLength.invalidAtWorst_decompress expected stored
    · exact FlatCompressor.invalidAtWorst_decodeZip coders stored expected
    · exact Outcome.invalidAtWorst_invalid _
  rw [unpackBytes_eq]
  exact formed.exactly _

/-- Unpacked bytes have the expected length. -/
theorem length_unpackBytes {method : Method} {stored raw : Bytes} {expected : Nat}
    (unpacked : unpackBytes coders method stored expected = .ok raw) : raw.length = expected := by
  rw [unpackBytes_eq] at unpacked
  exact Outcome.length_of_exactly unpacked

/-- A call that fails returns no bytes, and keeps none of an earlier call. -/
theorem output_of_uncompress_error {schedule : Schedule} {stored : Bytes} {offsets : List Int32}
    {fault : Fault}
    (failed : (compressor.uncompress coders schedule stored offsets).1 = .error fault) :
    (compressor.uncompress coders schedule stored offsets).2.buffers.output = [] := by
  unfold uncompress at failed ⊢
  cases counted : Offsets.total offsets with
  | error cause => rfl
  | ok total =>
    simp only [counted] at failed ⊢
    by_cases method : compressor.started.method = .zstd
    · rw [if_pos method] at failed ⊢
      exact congrArg (·.buffers.output) (replacing_snd_of_error _ failed)
    · rw [if_neg method] at failed ⊢
      exact congrArg (·.buffers.output) (replacing_snd_of_error _ failed)

variable {stored samples : Bytes} {offsets : List Int32}

/-- Stored bytes of a deep block are read or invalid, unless the block is too large for any
byte string. -/
theorem invalidAtWorst_uncompress (schedule : Schedule) (serves : Serves layer compressor)
    (word : ∀ total, Offsets.total offsets = .ok total →
      total * layer.channels.bytesPerPixel < Size.bound) :
    Outcome.InvalidAtWorst (compressor.uncompress coders schedule stored offsets).1 := by
  rw [uncompress_fst]
  refine (Offsets.invalidAtWorst_total offsets).bind fun total counted => ?_
  split
  · exact invalidAtWorst_decodeChannels _ _ _ _ (Offsets.total_lt counted)
  · rw [decodeBuffer, serves.channels, Size.mul?_eq_some_iff.mpr ⟨word total counted, rfl⟩]
    exact invalidAtWorst_unpackBytes _ _ _ _

/-- The samples of an envelope are those of its chunks, for the offsets of some block. -/
theorem uncompress_zstd_eq_ok_iff (schedule : Schedule) (serves : Serves layer compressor)
    (method : layer.method = .zstd) :
    (compressor.uncompress coders schedule stored offsets).1 = .ok samples ↔
      ∃ total body, Offsets.total offsets = .ok total ∧
        stored = Scalar.int32.encode Envelope.version ++ body ∧
        Samples coders total layer.channels body samples := by
  constructor
  · intro read
    rw [uncompress_fst] at read
    obtain ⟨total, counted, -⟩ := Outcome.bind_eq_ok_iff.mp read
    rw [← uncompress_fst, uncompress_zstd schedule serves method counted] at read
    obtain ⟨body, front, holds⟩ :=
      (decodeChannels_eq_ok_iff schedule (Offsets.total_lt counted)).mp read
    exact ⟨total, body, counted, front, holds⟩
  · rintro ⟨total, body, counted, front, holds⟩
    rw [uncompress_zstd schedule serves method counted]
    exact (decodeChannels_eq_ok_iff schedule (Offsets.total_lt counted)).mpr ⟨body, front, holds⟩

/-- Samples that were read are those of a block with these offsets, and as many as the
offsets say. -/
theorem length_uncompress (schedule : Schedule) (serves : Serves layer compressor)
    (read : (compressor.uncompress coders schedule stored offsets).1 = .ok samples) :
    ∃ total, Offsets.total offsets = .ok total ∧
      samples.length = total * layer.channels.bytesPerPixel := by
  by_cases method : layer.method = .zstd
  · obtain ⟨total, body, counted, -, holds⟩ :=
      (uncompress_zstd_eq_ok_iff schedule serves method).mp read
    exact ⟨total, counted, holds.length_eq⟩
  · rw [uncompress_fst] at read
    obtain ⟨total, counted, read⟩ := Outcome.bind_eq_ok_iff.mp read
    rw [if_neg (by rwa [serves.method]), decodeBuffer] at read
    cases product : Size.mul? total compressor.channels.bytesPerPixel with
    | none =>
      rw [product] at read
      cases read
    | some expected =>
      rw [product] at read
      refine ⟨total, counted, ?_⟩
      rw [length_unpackBytes read, (Size.mul?_eq_some_iff.mp product).2, serves.channels]

/-- Whatever the stored bytes and the offsets are, a deep block is read or invalid. It is
read only with the offsets of a block and to the size that they ask for, and an envelope
exactly if it holds the samples of every channel. Otherwise no bytes are left. -/
theorem uncompress_accepts_iff (made : MadeFor layer compressor) (schedule : Schedule)
    (word : ∀ total, Offsets.total offsets = .ok total →
      total * layer.channels.bytesPerPixel < Size.bound) :
    let call := compressor.uncompress coders schedule stored offsets
    (∀ samples, call.1 = .ok samples → ∃ total, Offsets.total offsets = .ok total ∧
      samples.length = total * layer.channels.bytesPerPixel) ∧
    (layer.method = .zstd → ∀ samples, call.1 = .ok samples ↔
      ∃ total body, Offsets.total offsets = .ok total ∧
        stored = Scalar.int32.encode Envelope.version ++ body ∧
        Samples coders total layer.channels body samples) ∧
    ((∃ samples, call.1 = .ok samples) ∨
      (∃ cause, call.1 = .error (.invalid cause)) ∧ call.2.buffers.output = []) := by
  intro call
  have serves := made.serves
  have worst : Outcome.InvalidAtWorst call.1 := invalidAtWorst_uncompress schedule serves word
  refine ⟨fun samples read => length_uncompress schedule serves read,
    fun method samples => uncompress_zstd_eq_ok_iff schedule serves method, ?_⟩
  rcases worst.cases with read | ⟨cause, failed⟩
  · exact .inl read
  · exact .inr ⟨⟨cause, failed⟩, output_of_uncompress_error failed⟩

/-- An envelope of four samples is its version and the chunks of its three channels. One
byte behind the last chunk makes it invalid. -/
theorem uncompress_accepts_iff_trailing :
    (∃ total body, Offsets.total [1, 1, 4] = .ok total ∧
      deepEnvelope = Scalar.int32.encode Envelope.version ++ body ∧
      Samples deepRecording.coders total deepLayer.channels body
        (settled 4 deepLayer.channels deepSamples)) ∧
    ∃ cause, (deepReader.uncompress deepRecording.coders .reversed (deepEnvelope ++ [0])
      [1, 1, 4]).1 = .error (.invalid cause) := by
  have changed : Defaults.Reachable { Defaults.initial with zip := 9, zstd := 1 } :=
    Defaults.reachable_iff_valid.mpr ⟨by decide, by decide, by decide⟩
  have made : MadeFor deepLayer deepReader := ⟨_, changed, rfl⟩
  have word : ∀ total, Offsets.total [1, 1, 4] = .ok total →
      total * deepLayer.channels.bytesPerPixel < Size.bound := by
    rintro total ⟨⟩
    decide
  have whole : (deepReader.uncompress deepRecording.coders .reversed deepEnvelope
      [1, 1, 4]).1 = .ok (settled 4 deepLayer.channels deepSamples) := rfl
  have trailing : (deepReader.uncompress deepRecording.coders .reversed (deepEnvelope ++ [0])
      [1, 1, 4]).1.toOption = none := rfl
  refine ⟨((uncompress_accepts_iff made .reversed word).2.1 rfl _).mp whole, ?_⟩
  rcases (uncompress_accepts_iff made .reversed word).2.2 with ⟨samples, read⟩ | ⟨failed, -⟩
  · rw [read] at trailing
    cases trailing
  · exact failed

end Blocks

end PixelBlocks.DeepCompressor

import PixelBlocks.Proofs.Deep.Corruption
import PixelBlocks.Proofs.Flat.Corruption

/-!
# Calls find no fault with settings

A call that fails blames its data, its buffers, its encoder or its method. The only settings
that are checked once more after an instance was made are the parameters of chunks. The level
is the only one of them that is not fixed by sample types, so an instance with an acceptable
level never finds a wrong setting.
-/

namespace PixelBlocks

namespace Outcome

variable {Input Result : Type}

/-- No fault is found with a setting. -/
def SettingsAccepted (outcome : Outcome Result) : Prop :=
  ∀ cause, outcome ≠ .error (.configuration cause)

/-- A result is no fault. -/
@[simp] theorem settingsAccepted_ok (result : Result) :
    SettingsAccepted (.ok result : Outcome Result) := by
  intro cause same
  cases same

/-- A fault that is not one of settings. -/
@[simp] theorem settingsAccepted_error_iff {fault : Fault} :
    SettingsAccepted (.error fault : Outcome Result) ↔ ∀ cause, fault ≠ .configuration cause := by
  simp [SettingsAccepted]

/-- Invalid input is no fault of settings. -/
theorem InvalidAtWorst.settingsAccepted {outcome : Outcome Result}
    (worst : InvalidAtWorst outcome) : SettingsAccepted outcome := by
  intro cause failed
  obtain ⟨other, same⟩ := worst _ failed
  cases same

/-- Two operations accept the settings if the first does, and the second does on every result
of the first. -/
theorem SettingsAccepted.bind {first : Outcome Input} {next : Input → Outcome Result}
    (start : SettingsAccepted first)
    (follow : ∀ result, first = .ok result → SettingsAccepted (next result)) :
    SettingsAccepted (first >>= next) := by
  cases first with
  | ok result => exact follow result rfl
  | error fault =>
    intro cause failed
    cases failed
    exact start cause rfl

/-- A result that is made of another one finds no fault. -/
theorem SettingsAccepted.bind_ok {first : Outcome Input} {image : Input → Result}
    (accepted : SettingsAccepted first) :
    SettingsAccepted (first >>= fun input => .ok (image input)) := by
  apply accepted.bind
  intro _ _
  exact settingsAccepted_ok _

/-- Presenting a result finds no fault. -/
theorem SettingsAccepted.map {image : Input → Result} {outcome : Outcome Input}
    (accepted : SettingsAccepted outcome) : SettingsAccepted (outcome.map image) := by
  cases outcome with
  | ok result => exact settingsAccepted_ok _
  | error fault =>
    intro cause failed
    cases failed
    exact accepted cause rfl

/-- The operations of a list accept the settings if each does. -/
theorem SettingsAccepted.mapM {task : Input → Outcome Result} {inputs : List Input}
    (each : ∀ input ∈ inputs, SettingsAccepted (task input)) :
    SettingsAccepted (inputs.mapM task) := by
  induction inputs with
  | nil => exact settingsAccepted_ok []
  | cons input rest inductionHypothesis =>
    obtain ⟨here, later⟩ := List.forall_mem_cons.mp each
    rw [List.mapM_cons]
    apply here.bind
    intro result _
    exact (inductionHypothesis later).bind_ok

/-- So do steps in a row, from any state. -/
theorem SettingsAccepted.foldlM {State : Type} {step : State → Input → Outcome State}
    (each : ∀ state input, SettingsAccepted (step state input)) (inputs : List Input)
    (state : State) : SettingsAccepted (inputs.foldlM step state) := by
  induction inputs generalizing state with
  | nil => exact settingsAccepted_ok state
  | cons input rest inductionHypothesis =>
    rw [List.foldlM_cons]
    apply (each state input).bind
    intro next _
    exact inductionHypothesis next

/-- A guard that finds no fault with settings leaves the operation behind it. -/
theorem SettingsAccepted.guard {condition : Prop} [Decidable condition] {fault : Fault}
    {next : Outcome Result} (other : ∀ cause, fault ≠ .configuration cause)
    (rest : SettingsAccepted next) :
    SettingsAccepted (if condition then .error fault else next) := by
  split
  · exact settingsAccepted_error_iff.mpr other
  · exact rest

end Outcome

open Outcome

section Sizes

/-- A sampling factor that cannot be used in a row is data, or a mistake of the caller. -/
theorem Channel.settingsAccepted_samplesInRow (channel : Channel) (row : Int32)
    (bounds : Rectangle) : SettingsAccepted (channel.samplesInRow row bounds) := by
  refine .guard (by simp) (.guard (by simp) ?_)
  split
  · exact settingsAccepted_ok 0
  · apply SettingsAccepted.bind_ok
    exact .guard (by simp) (settingsAccepted_ok _)

/-- A size that is too large for memory is a matter of capacity. -/
theorem ChannelList.settingsAccepted_addRow (bounds : Rectangle) (row : Int32) (total : Nat)
    (channel : Channel) : SettingsAccepted (addRow bounds row total channel) := by
  apply (channel.settingsAccepted_samplesInRow row bounds).bind
  intro samples _
  split <;> simp

/-- So is the size of rows. -/
theorem ChannelList.settingsAccepted_addRows (channels : ChannelList) (bounds : Rectangle)
    (count : Nat) (row : Int32) (total : Nat) :
    SettingsAccepted (addRows channels bounds count row total) := by
  induction count generalizing row total with
  | zero => exact settingsAccepted_ok total
  | succ count inductionHypothesis =>
    have line := SettingsAccepted.foldlM (settingsAccepted_addRow bounds row) channels total
    rw [addRows]
    split
    · next fault failed =>
      rwa [failed] at line
    · next sum _ => exact inductionHypothesis (row + 1) sum

/-- So is the size of a block. -/
theorem ChannelList.settingsAccepted_byteSize (channels : ChannelList) (bounds : Rectangle) :
    SettingsAccepted (channels.byteSize bounds) := by
  apply bounds.invalidAtWorst_opposite.settingsAccepted.bind
  intro _ _
  exact channels.settingsAccepted_addRows bounds _ _ _

end Sizes

namespace Planes

/-- The segments of a row are found or not for the same reasons as its size. -/
theorem settingsAccepted_segmentsFrom (channels : ChannelList) (bounds : Rectangle) (count : Nat)
    (row : Int32) : SettingsAccepted (segmentsFrom channels bounds count row) := by
  induction count generalizing row with
  | zero => exact settingsAccepted_ok []
  | succ count inductionHypothesis =>
    rw [segmentsFrom]
    apply SettingsAccepted.bind
    · apply SettingsAccepted.mapM
      intro channel _
      exact (channel.settingsAccepted_samplesInRow row bounds).bind_ok
    · intro here _
      exact (inductionHypothesis (row + 1)).bind_ok

/-- So are the segments of a block. -/
theorem settingsAccepted_segments (channels : ChannelList) (bounds : Rectangle) :
    SettingsAccepted (segments channels bounds) := by
  apply bounds.invalidAtWorst_opposite.settingsAccepted.bind
  intro _ _
  exact settingsAccepted_segmentsFrom channels bounds _ _

/-- Samples that do not fill their segments are data. -/
theorem invalidAtWorst_encode (segments : List Segment) (bytes : Bytes) :
    InvalidAtWorst (encode segments bytes) := by
  induction segments generalizing bytes with
  | nil => cases bytes <;> simp [encode]
  | cons segment others inductionHypothesis =>
    rw [encode]
    apply (Scalar.invalidAtWorst_takeBytes _ _).bind
    intro _ _
    apply (inductionHypothesis _).bind
    intro _ _
    exact invalidAtWorst_ok _

end Planes

section Chunks

/-- Sizes that do not fit into their fields are data. -/
theorem ChunkHeader.invalidAtWorst_encode (header : ChunkHeader) :
    InvalidAtWorst header.encode := by
  by_cases dictionaryLarge : 0x100000000 ≤ header.dictionary
  · simp [encode, write, fields, writeFields, sizeField, dictionaryLarge]
  · by_cases payloadLarge : 0x100000000 ≤ header.payload <;>
      simp [encode, write, fields, writeFields, sizeField, dictionaryLarge, payloadLarge]

/-- A chunk with valid parameters is made, or it is too large, or its encoder failed. -/
theorem Chunk.settingsAccepted_encode (coders : Coders) {parameters : ChunkParameters}
    (valid : parameters.validate = .ok ()) (bytes : Bytes) :
    SettingsAccepted (encode coders parameters bytes) := by
  rw [encode, valid, Outcome.ok_bind]
  dsimp only
  split
  · simp
  · refine .guard (by simp) ?_
    apply (ChunkHeader.invalidAtWorst_chunkSize _).settingsAccepted.bind
    intro _ _
    exact (ChunkHeader.invalidAtWorst_encode _).settingsAccepted.bind_ok

/-- An envelope is made, or one of its chunks is too large. -/
theorem Envelope.settingsAccepted_encode (chunks : List Bytes) :
    SettingsAccepted (encode chunks) := by
  have body : SettingsAccepted (encodeChunks chunks) := by
    induction chunks with
    | nil => exact settingsAccepted_ok []
    | cons chunk others inductionHypothesis =>
      apply SettingsAccepted.bind
      · exact .guard (by simp) (settingsAccepted_ok _)
      · intro _ _
        exact inductionHypothesis.bind_ok
  exact body.bind_ok

end Chunks

namespace FlatCompressor

variable (coders : Coders) (compressor : FlatCompressor)

/-- The compressed form of a block finds no fault with settings. -/
theorem settingsAccepted_encodedForm
    (level : 1 ≤ compressor.zstdLevel ∧ compressor.zstdLevel ≤ 9) (scratch raw : Bytes)
    (bounds : Rectangle) :
    SettingsAccepted (compressor.encodedForm coders scratch raw bounds) := by
  have planes : SettingsAccepted (compressor.encodePlanes coders raw bounds) := by
    unfold encodePlanes
    split
    · exact settingsAccepted_ok []
    · apply (Planes.settingsAccepted_segments _ _).bind
      intro segments _
      exact (Planes.invalidAtWorst_encode segments raw).settingsAccepted.bind_ok
  have chunk := Chunk.settingsAccepted_encode coders (validate_chunkParameters level) raw
  unfold encodedForm
  split
  · exact settingsAccepted_ok none
  · exact settingsAccepted_ok _
  · exact settingsAccepted_ok _
  · exact settingsAccepted_ok _
  · exact planes.bind_ok
  · exact chunk.bind_ok
  · simp

/-- Compressing a block finds no fault with settings. -/
theorem settingsAccepted_compress (level : 1 ≤ compressor.zstdLevel ∧ compressor.zstdLevel ≤ 9)
    (raw : Bytes) (place : Place) : SettingsAccepted (compressor.compress coders raw place).1 := by
  rw [compress_fst]
  apply (compressor.invalidAtWorst_boundsOf place).settingsAccepted.bind
  intro bounds _
  apply SettingsAccepted.bind
  · apply (compressor.channels.settingsAccepted_byteSize bounds).bind
    intro expected _
    split <;> simp
  · intro _ _
    exact (compressor.settingsAccepted_encodedForm coders level _ raw bounds).bind_ok

/-- Decompressing a block finds no fault with settings. -/
theorem settingsAccepted_uncompress (stored : Bytes) (place : Place) :
    SettingsAccepted (compressor.uncompress coders stored place).1 := by
  rw [uncompress_fst]
  apply (compressor.invalidAtWorst_boundsOf place).settingsAccepted.bind
  intro bounds _
  apply (compressor.channels.settingsAccepted_byteSize bounds).bind
  intro expected sized
  by_cases implemented : compressor.method.isImplemented = true
  · exact (invalidAtWorst_rawForm implemented sized stored).settingsAccepted
  · rw [rawForm, if_pos implemented]
    simp

end FlatCompressor

namespace DeepCompressor

variable (coders : Coders) (schedule : Schedule) (compressor : DeepCompressor)

/-- Ranges of channels that do not fit the samples are data or a matter of capacity. -/
theorem settingsAccepted_rangesFrom (channels : ChannelList) (total available start : Nat) :
    SettingsAccepted (rangesFrom total available start channels) := by
  induction channels generalizing start with
  | nil =>
    rw [rangesFrom]
    split <;> simp
  | cons channel others inductionHypothesis =>
    rw [rangesFrom_cons]
    exact .guard (by simp) (inductionHypothesis _).bind_ok

/-- Compressing the samples of a block finds no fault with settings. -/
theorem settingsAccepted_compress (level : 1 ≤ compressor.zstdLevel ∧ compressor.zstdLevel ≤ 9)
    (samples : Bytes) (offsets : List Int32) :
    SettingsAccepted (compressor.compress coders schedule samples offsets).1 := by
  rw [compress_fst]
  apply (Offsets.invalidAtWorst_total offsets).settingsAccepted.bind
  intro total _
  apply (settingsAccepted_rangesFrom compressor.channels total samples.length 0).bind
  intro ranges _
  split
  · rw [encodeChannels_eq_mapM]
    apply SettingsAccepted.bind
    · apply SettingsAccepted.mapM
      intro range _
      exact Chunk.settingsAccepted_encode coders
        (ChunkParameters.validate_ofSampleType range.type level) _
    · intro chunks _
      exact Envelope.settingsAccepted_encode chunks
  · exact settingsAccepted_ok _

/-- Decompressing the samples of a block finds no fault with settings. -/
theorem settingsAccepted_uncompress (stored : Bytes) (offsets : List Int32) :
    SettingsAccepted (compressor.uncompress coders schedule stored offsets).1 := by
  rw [uncompress_fst]
  apply (Offsets.invalidAtWorst_total offsets).settingsAccepted.bind
  intro total _
  split
  · rw [decodeChannels_eq_mapM]
    apply (Envelope.invalidAtWorst_decode _ _).settingsAccepted.bind
    intro chunks _
    apply SettingsAccepted.bind
    · apply SettingsAccepted.mapM
      rintro ⟨channel, chunk⟩ _
      dsimp only
      split <;> simp
    · intro expected _
      apply SettingsAccepted.bind_ok
      apply SettingsAccepted.mapM
      intro chunk _
      exact (invalidAtWorst_decodeChunk coders chunk).settingsAccepted
  · unfold decodeBuffer
    split
    · simp
    · exact (invalidAtWorst_unpackBytes _ _ _ _).settingsAccepted

/-- Compressing an offset table finds no fault with settings. -/
theorem settingsAccepted_compressTable
    (level : 1 ≤ compressor.zstdLevel ∧ compressor.zstdLevel ≤ 9) (offsets : List Int32) :
    SettingsAccepted (compressor.compressTable coders offsets).1 := by
  rw [compressTable_fst]
  apply (Offsets.invalidAtWorst_total offsets).settingsAccepted.bind
  intro _ _
  split
  · apply (Chunk.settingsAccepted_encode coders
      (ChunkParameters.validate_ofSampleType .uint level) _).bind
    intro chunk _
    exact Envelope.settingsAccepted_encode [chunk]
  · exact settingsAccepted_ok _

/-- Decompressing an offset table finds no fault with settings. -/
theorem settingsAccepted_uncompressTable (stored : Bytes) (pixels : Nat) :
    SettingsAccepted (compressor.uncompressTable coders stored pixels).1 := by
  unfold uncompressTable
  dsimp only
  split
  · simp
  · next size _ =>
    apply SettingsAccepted.bind
    · unfold tableBytes
      split
      · apply (Envelope.invalidAtWorst_decode _ _).settingsAccepted.bind
        intro chunks _
        exact (invalidAtWorst_decodeChunk coders _).settingsAccepted
      · exact (invalidAtWorst_unpackBytes _ _ _ _).settingsAccepted
    · intro table _
      exact (Offsets.invalidAtWorst_decode pixels table).settingsAccepted

end DeepCompressor

end PixelBlocks

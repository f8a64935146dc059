import PixelBlocks.Deep
import PixelBlocks.Proofs.Deep.Envelope
import PixelBlocks.Proofs.Outcome

/-!
# Buffers do not matter

Instances keep two buffers between calls, and a call that fails may leave anything in
them, also the front of an envelope. Deep instances append to their output, so what they
return depends on it, unless the call discards the output at its start. So what a call
returns is computed from the settings of the instance alone, and these no call changes. An
instance that forgets its buffers stands for its settings here.
-/

namespace PixelBlocks

namespace FlatCompressor

variable (coders : Coders) (compressor : FlatCompressor) (bytes : Bytes) (place : Place)

/-- A new instance has empty buffers. -/
theorem clear_of_build {defaults : Defaults} {layer : Layer} {compressor : FlatCompressor}
    (built : build defaults layer = .ok compressor) : compressor.clear = compressor := by
  obtain ⟨⟨⟩, -, made⟩ := Outcome.bind_eq_ok_iff.mp built
  obtain ⟨-, same⟩ := Outcome.guard_eq_ok_iff.mp made
  cases same
  rfl

/-- What compressing returns. -/
theorem compress_fst :
    (compressor.compress coders bytes place).1 = (do
      let bounds ← compressor.boundsOf place
      compressor.checkLength bytes bounds
      let form ← compressor.encodedForm coders (compressor.prepared bytes) bytes bounds
      return shorterForm form bytes) := by
  unfold compress
  cases compressor.boundsOf place with
  | error fault => rfl
  | ok bounds =>
    simp only [compressSection, Outcome.ok_bind]
    cases compressor.checkLength bytes bounds with
    | error fault => rfl
    | ok accepted =>
      simp only [Outcome.ok_bind]
      cases compressor.encodedForm coders (compressor.prepared bytes) bytes bounds <;> rfl

/-- What decompressing returns. -/
theorem uncompress_fst :
    (compressor.uncompress coders bytes place).1 = (do
      let bounds ← compressor.boundsOf place
      let expected ← compressor.channels.byteSize bounds
      compressor.rawForm coders bytes bounds expected) := by
  unfold uncompress
  cases compressor.boundsOf place with
  | error fault => rfl
  | ok bounds =>
    simp only [uncompressSection, Outcome.ok_bind]
    cases compressor.channels.byteSize bounds with
    | error fault => rfl
    | ok expected =>
      simp only [Outcome.ok_bind]
      cases compressor.rawForm coders bytes bounds expected <;> rfl

/-- The places of an instance do not depend on its buffers. -/
@[simp] theorem boundsOf_clear : compressor.clear.boundsOf place = compressor.boundsOf place := by
  cases place <;> rfl

/-- The compressed form of a block does not depend on the buffers: the methods that use
the scratch buffer fill it first. -/
theorem encodedForm_clear (bounds : Rectangle) :
    compressor.clear.encodedForm coders (compressor.clear.prepared bytes) bytes bounds =
      compressor.encodedForm coders (compressor.prepared bytes) bytes bounds := by
  obtain ⟨method, channels, window, largest, scanLines, zipLevel, zstdLevel, quality, buffers⟩ :=
    compressor
  cases method <;> rfl

/-- What compressing returns does not depend on the buffers. -/
theorem compress_clear :
    (compressor.clear.compress coders bytes place).1 =
      (compressor.compress coders bytes place).1 := by
  rw [compress_fst, compress_fst, boundsOf_clear]
  simp only [encodedForm_clear]
  rfl

/-- What decompressing returns does not depend on the buffers. -/
theorem uncompress_clear :
    (compressor.clear.uncompress coders bytes place).1 =
      (compressor.uncompress coders bytes place).1 := by
  rw [uncompress_fst, uncompress_fst, boundsOf_clear]
  rfl

/-- Compressing changes nothing but the buffers. -/
@[simp] theorem clear_compress :
    (compressor.compress coders bytes place).2.clear = compressor.clear := by
  unfold compress
  split
  · rfl
  · unfold compressSection
    split
    · rfl
    · dsimp only
      split <;> rfl

/-- Decompressing changes nothing but the buffers. -/
@[simp] theorem clear_uncompress :
    (compressor.uncompress coders bytes place).2.clear = compressor.clear := by
  unfold uncompress
  split
  · rfl
  · unfold uncompressSection
    split
    · rfl
    · split <;> rfl

end FlatCompressor

namespace DeepCompressor

variable (coders : Coders) (schedule : Schedule) (compressor : DeepCompressor) (bytes : Bytes)
variable (offsets : List Int32)

/-- A new instance has empty buffers. -/
theorem clear_of_build {defaults : Defaults} {layer : Layer} {compressor : DeepCompressor}
    (built : build defaults layer = .ok compressor) : compressor.clear = compressor := by
  obtain ⟨⟨⟩, -, made⟩ := Outcome.bind_eq_ok_iff.mp built
  obtain ⟨-, supported⟩ := Outcome.guard_eq_ok_iff.mp made
  obtain ⟨-, same⟩ := Outcome.guard_eq_ok_iff.mp supported
  cases same
  rfl

/-- A call that replaces the output returns its outcome. -/
@[simp] theorem replacing_fst (outcome : Outcome Bytes) :
    (compressor.replacing outcome).1 = outcome := by
  cases outcome <;> rfl

/-- A call that appends to the output returns what was there before, too. -/
theorem appending_fst (outcome : Outcome Bytes) :
    (compressor.appending outcome).1 = outcome.map (compressor.buffers.output ++ ·) :=
  replacing_fst compressor _

/-- A fault replaces nothing. -/
theorem replacing_snd_of_error {outcome : Outcome Bytes} {fault : Fault}
    (failed : (compressor.replacing outcome).1 = .error fault) :
    (compressor.replacing outcome).2 = compressor := by
  rw [replacing_fst] at failed
  rw [failed]
  rfl

/-- An envelope is returned behind what was in the output before. -/
theorem appendEnvelope_fst (chunks : Outcome (List Bytes)) :
    (compressor.appendEnvelope chunks).1 =
      (chunks >>= Envelope.encode).map (compressor.buffers.output ++ ·) := by
  cases chunks with
  | error fault => rfl
  | ok chunks =>
    rw [Outcome.ok_bind, appendEnvelope]
    rcases Envelope.append_cases compressor.buffers.output chunks with
      ⟨envelope, encoded, appended⟩ | ⟨fault, front, failed, appended⟩
    · rw [encoded, appended]
      rfl
    · rw [failed, appended]
      rfl

/-- Nothing is in the output at the start of a call. -/
@[simp] theorem output_started : compressor.started.buffers.output = [] := rfl

/-- What is appended at the start of a call is all that is returned. -/
@[simp] theorem appending_started_fst (outcome : Outcome Bytes) :
    (compressor.started.appending outcome).1 = outcome := by
  rw [appending_fst, output_started]
  cases outcome <;> rfl

/-- An envelope that is written at the start of a call is all that is returned. -/
@[simp] theorem appendEnvelope_started_fst (chunks : Outcome (List Bytes)) :
    (compressor.started.appendEnvelope chunks).1 = chunks >>= Envelope.encode := by
  rw [appendEnvelope_fst, output_started]
  cases chunks >>= Envelope.encode <;> rfl

/-- Replacing the output changes nothing but the buffers. -/
@[simp] theorem clear_replacing (outcome : Outcome Bytes) :
    (compressor.replacing outcome).2.clear = compressor.clear := by
  cases outcome <;> rfl

/-- Appending to the output changes nothing but the buffers. -/
@[simp] theorem clear_appending (outcome : Outcome Bytes) :
    (compressor.appending outcome).2.clear = compressor.clear :=
  clear_replacing compressor _

/-- Writing an envelope changes nothing but the buffers, also if it is not finished. -/
@[simp] theorem clear_appendEnvelope (chunks : Outcome (List Bytes)) :
    (compressor.appendEnvelope chunks).2.clear = compressor.clear := by
  cases chunks <;> rfl

/-- The envelope of the chunks of all channels. -/
def encodeChannels (level : UInt8) (samples : Bytes) (ranges : List ChannelRange) :
    Outcome Bytes := do
  let chunks ← channelChunks coders schedule level samples ranges
  Envelope.encode chunks

/-- What the byte methods make of bytes, which they prepare first if they have to. -/
def packed (bytes : Bytes) : Bytes :=
  packBytes coders compressor.method compressor.zipLevel (compressor.prepared bytes) bytes

/-- The byte methods do not depend on the buffers. -/
theorem packed_started :
    compressor.started.packed coders bytes = compressor.packed coders bytes := by
  obtain ⟨method, channels, zipLevel, zstdLevel, buffers⟩ := compressor
  cases method <;> rfl

/-- The byte methods do not depend on the buffers. -/
theorem packed_clear : compressor.clear.packed coders bytes = compressor.packed coders bytes := by
  obtain ⟨method, channels, zipLevel, zstdLevel, buffers⟩ := compressor
  cases method <;> rfl

/-- What compressing sample data returns. -/
theorem compress_fst :
    (compressor.compress coders schedule bytes offsets).1 = (do
      let total ← Offsets.total offsets
      let ranges ← channelRanges compressor.channels total bytes.length
      if compressor.method = .zstd then
        encodeChannels coders schedule compressor.zstdLevel bytes ranges
      else .ok (compressor.packed coders bytes)) := by
  unfold compress
  cases Offsets.total offsets with
  | error fault => rfl
  | ok total =>
    have channels : compressor.started.channels = compressor.channels := rfl
    have method : compressor.started.method = compressor.method := rfl
    simp only [Outcome.ok_bind, channels, method]
    cases channelRanges compressor.channels total bytes.length with
    | error fault => rfl
    | ok ranges =>
      simp only [Outcome.ok_bind]
      split
      · exact appendEnvelope_started_fst compressor _
      · exact congrArg Except.ok (packed_started coders compressor bytes)

/-- What decompressing sample data returns. -/
theorem uncompress_fst :
    (compressor.uncompress coders schedule bytes offsets).1 = (do
      let total ← Offsets.total offsets
      if compressor.method = .zstd then
        decodeChannels coders schedule compressor.channels bytes total
      else compressor.decodeBuffer coders bytes total) := by
  unfold uncompress
  cases Offsets.total offsets with
  | error fault => rfl
  | ok total =>
    have method : compressor.started.method = compressor.method := rfl
    simp only [Outcome.ok_bind, method]
    split
    · exact appending_started_fst compressor _
    · exact replacing_fst compressor.started _

/-- What compressing an offset table returns. -/
theorem compressTable_fst :
    (compressor.compressTable coders offsets).1 = (do
      let _ ← Offsets.total offsets
      if compressor.method = .zstd then do
        let chunk ← Chunk.encode coders (.ofSampleType .uint compressor.zstdLevel)
          (Offsets.encode offsets)
        Envelope.encode [chunk]
      else .ok (compressor.packed coders (Offsets.encode offsets))) := by
  unfold compressTable
  cases Offsets.total offsets with
  | error fault => rfl
  | ok total =>
    have method : compressor.started.method = compressor.method := rfl
    have level : compressor.started.zstdLevel = compressor.zstdLevel := rfl
    simp only [Outcome.ok_bind, method, level]
    split
    · simp only [appendEnvelope_started_fst, bind_assoc, pure_bind]
    · exact congrArg Except.ok (packed_started coders compressor (Offsets.encode offsets))

/-- What compressing sample data returns does not depend on the buffers. -/
theorem compress_clear :
    (compressor.clear.compress coders schedule bytes offsets).1 =
      (compressor.compress coders schedule bytes offsets).1 := by
  rw [compress_fst, compress_fst, packed_clear]
  rfl

/-- What decompressing sample data returns does not depend on the buffers. -/
theorem uncompress_clear :
    (compressor.clear.uncompress coders schedule bytes offsets).1 =
      (compressor.uncompress coders schedule bytes offsets).1 := by
  rw [uncompress_fst, uncompress_fst]
  rfl

/-- What compressing an offset table returns does not depend on the buffers. -/
theorem compressTable_clear :
    (compressor.clear.compressTable coders offsets).1 =
      (compressor.compressTable coders offsets).1 := by
  rw [compressTable_fst, compressTable_fst, packed_clear]
  rfl

/-- What decompressing an offset table returns does not depend on the buffers. -/
theorem uncompressTable_clear (pixels : Nat) :
    (compressor.clear.uncompressTable coders bytes pixels).1 =
      (compressor.uncompressTable coders bytes pixels).1 := rfl

/-- Compressing sample data changes nothing but the buffers. -/
@[simp] theorem clear_compress :
    (compressor.compress coders schedule bytes offsets).2.clear = compressor.clear := by
  unfold compress
  dsimp only
  split
  · rfl
  · split
    · exact clear_appendEnvelope _ _
    · rfl

/-- Decompressing sample data changes nothing but the buffers. -/
@[simp] theorem clear_uncompress :
    (compressor.uncompress coders schedule bytes offsets).2.clear = compressor.clear := by
  unfold uncompress
  dsimp only
  split
  · rfl
  · split
    · exact clear_appending _ _
    · exact clear_replacing _ _

/-- Compressing an offset table changes nothing but the buffers. -/
@[simp] theorem clear_compressTable :
    (compressor.compressTable coders offsets).2.clear = compressor.clear := by
  unfold compressTable
  dsimp only
  split
  · rfl
  · split
    · exact clear_appendEnvelope _ _
    · rfl

/-- Decompressing an offset table changes nothing but the buffers. -/
@[simp] theorem clear_uncompressTable (pixels : Nat) :
    (compressor.uncompressTable coders bytes pixels).2.clear = compressor.clear := rfl

end DeepCompressor

end PixelBlocks

import PixelBlocks.Proofs.Coders
import PixelBlocks.Proofs.Deep.Calls

/-!
# Deep blocks come back

The sample data of a deep block that one instance of a layer compressed is decompressed
by any other instance of this layer, in whatever order their tasks run. The byte methods
bring it back exactly. Chunks truncate the floats, once and for all, and an envelope of
chunks is of use only to readers of the same sample types and number of samples.
-/

namespace PixelBlocks.DeepCompressor

variable {coders : Coders} {layer : Layer} {writer reader : DeepCompressor}
variable {offsets : List Int32} {total : Nat} {samples : Bytes}

/-- The sample data of a block is compressed, and decompressed by any instance of the
layer: exactly, or with truncated floats if it went through chunks. -/
theorem exists_roundTrip (zlib : coders.ZlibLaws) (frames : coders.FrameLaws)
    (bounds : coders.FrameBounds) (dictionaries : coders.DictionaryLaws)
    (first second : Schedule) (writes : Serves layer writer) (reads : Serves layer reader)
    (counted : Offsets.total offsets = .ok total)
    (sized : samples.length = total * layer.channels.bytesPerPixel)
    (word : samples.length < Size.bound)
    (fits : layer.method = .zstd → ∀ channel ∈ layer.channels,
      Chunk.bound coders (total * channel.type.byteSize) < 0x80000000) :
    ∃ stored, (writer.compress coders first samples offsets).1 = .ok stored ∧
      (reader.uncompress coders second stored offsets).1 =
        .ok (if layer.method = .zstd then settled total layer.channels samples else samples) := by
  have covered : samples.length = 0 + total * layer.channels.bytesPerPixel := by omega
  obtain ⟨ranges, found⟩ := exists_rangesFrom covered word
  have compressed := compress_eq coders first writes counted found
  by_cases method : layer.method = .zstd
  · rw [if_pos method] at compressed ⊢
    have small := Offsets.total_lt counted
    have short : ∀ range ∈ ranges,
        Chunk.bound coders (range.slice samples).length < 0x80000000 := by
      intro range member
      obtain ⟨channel, listed, length⟩ := length_slice found member
      rw [length]
      exact fits method channel listed
    obtain ⟨envelope, encoded⟩ := exists_encodeChannels first frames bounds dictionaries
      writes.zstdLevel short
    rw [encoded] at compressed
    obtain ⟨-, encloses⟩ := encloses_compress frames dictionaries first writes method counted
      compressed
    refine ⟨envelope, compressed, ?_⟩
    rw [uncompress_zstd second reads method counted]
    exact decodeChannels_eq second encloses small (fun _ => length_of_mem_pieces sized)
      (length_piece_lt small sized) (map_type_pieces _ _ _).symm
  · rw [if_neg method] at compressed ⊢
    have implemented : implements writer.method = true := by
      rw [writes.method, writes.implemented]
    have plain : writer.method ≠ .zstd := by rwa [writes.method]
    refine ⟨_, compressed, ?_⟩
    rw [uncompress_bytes second reads method counted sized word, ← writes.method]
    exact unpackBytes_packBytes zlib writes.zipLevel implemented plain samples

/-- Three pixels of a deep scan line whose channels have all sample types. -/
def deepLayer : Layer where
  channels := [.full "A" .half, .full "Z" .float, .full "id" .uint]
  method := .zstd
  window := ⟨⟨-1, 7⟩, ⟨3, 1⟩⟩
  partition := .scanLines
  deep := true
  zstdLevel := none

/-- An instance for this layer, with the initial defaults and used buffers. -/
def deepWriter : DeepCompressor where
  method := .zstd
  channels := deepLayer.channels
  zipLevel := 4
  zstdLevel := 5
  buffers := ⟨[9], [8, 7]⟩

/-- An instance for this layer, made after the defaults had changed. -/
def deepReader : DeepCompressor :=
  { deepWriter with zipLevel := 9, zstdLevel := 1, buffers := .empty }

/-- Sample data of four samples. The floats are normal, a NaN, subnormal, and normal. -/
def deepSamples : Bytes :=
  let halves : Bytes := [0, 60, 0, 60, 0, 188, 1, 0]
  let floats : Bytes := [1, 0, 128, 63, 1, 0, 192, 127, 1, 0, 0, 0, 121, 233, 246, 194]
  let integers : Bytes := [7, 0, 0, 0, 7, 0, 0, 0, 7, 0, 0, 0, 232, 3, 0, 0]
  halves ++ floats ++ integers

/-- Frames of the prepared pieces of this sample data. -/
def deepRecording : Coders.Recording where
  streams := .empty
  frames :=
    { entries := [
        ([0, 0, 0, 1, 60, 60, 188, 0],
          [40, 181, 47, 253, 32, 8, 65, 0, 0, 0, 0, 0, 1, 60, 60, 188, 0]),
        ([0, 1, 1, 0, 0, 0, 0, 233, 128, 192, 0, 246, 63, 127, 0, 194],
          [40, 181, 47, 253, 32, 16, 129, 0, 0, 0, 1, 1, 0, 0, 0, 0, 233, 128, 192, 0, 246, 63,
            127, 0, 194]),
        ([7, 7, 7, 232, 0, 0, 0, 3, 0, 0, 0, 0, 0, 0, 0, 0],
          [40, 181, 47, 253, 32, 16, 129, 0, 0, 7, 7, 7, 232, 0, 0, 0, 3, 0, 0, 0, 0, 0, 0, 0, 0])]
      distinct := by decide
      unmarked := by decide }
  bounded := by decide

/-- Sample data that was compressed by one instance is decompressed by another, whatever
the defaults and the order of their tasks were. The byte methods bring it back exactly.
Chunks bring back the pieces of float channels truncated and all other pieces exactly.
What came back goes through two more instances without further change. -/
theorem settled_roundTrip (zlib : coders.ZlibLaws) (frames : coders.FrameLaws)
    (bounds : coders.FrameBounds) (dictionaries : coders.DictionaryLaws)
    {laterWriter laterReader : DeepCompressor}
    (written : MadeFor layer writer) (read : MadeFor layer reader)
    (writtenLater : MadeFor layer laterWriter) (readLater : MadeFor layer laterReader)
    (first second third fourth : Schedule) (counted : Offsets.total offsets = .ok total)
    (sized : samples.length = total * layer.channels.bytesPerPixel)
    (word : samples.length < Size.bound)
    (fits : layer.method = .zstd → ∀ channel ∈ layer.channels,
      Chunk.bound coders (total * channel.type.byteSize) < 0x80000000) :
    ∃ restored, restored =
        (if layer.method = .zstd then settled total layer.channels samples else samples) ∧
      (∃ stored, (writer.compress coders first samples offsets).1 = .ok stored ∧
        (reader.uncompress coders second stored offsets).1 = .ok restored) ∧
      ∃ stored, (laterWriter.compress coders third restored offsets).1 = .ok stored ∧
        (laterReader.uncompress coders fourth stored offsets).1 = .ok restored := by
  obtain ⟨stored, compressed, uncompressed⟩ := exists_roundTrip zlib frames bounds dictionaries
    first second written.serves read.serves counted sized word fits
  refine ⟨_, rfl, ⟨stored, compressed, uncompressed⟩, ?_⟩
  by_cases method : layer.method = .zstd
  · have length := length_settled sized
    obtain ⟨again, stores, restores⟩ := exists_roundTrip zlib frames bounds dictionaries third
      fourth writtenLater.serves readLater.serves counted (length.trans sized) (length ▸ word) fits
    rw [if_pos method, settled_settled sized] at restores
    rw [if_pos method]
    exact ⟨again, stores, restores⟩
  · obtain ⟨again, stores, restores⟩ := exists_roundTrip zlib frames bounds dictionaries third
      fourth writtenLater.serves readLater.serves counted sized word fits
    rw [if_neg method] at restores ⊢
    exact ⟨again, stores, restores⟩

/-- Four samples of three types, of which two floats lose bits, go through two envelopes. -/
theorem settled_roundTrip_types :
    ∃ restored, restored =
        (if deepLayer.method = .zstd then settled 4 deepLayer.channels deepSamples
          else deepSamples) ∧
      (∃ stored, (deepWriter.compress deepRecording.coders .reversed deepSamples [1, 1, 4]).1 =
          .ok stored ∧
        (deepReader.uncompress deepRecording.coders .inOrder stored [1, 1, 4]).1 =
          .ok restored) ∧
      ∃ stored, (deepWriter.compress deepRecording.coders .inOrder restored [1, 1, 4]).1 =
          .ok stored ∧
        (deepReader.uncompress deepRecording.coders .reversed stored [1, 1, 4]).1 =
          .ok restored := by
  have changed : Defaults.Reachable { Defaults.initial with zip := 9, zstd := 1 } :=
    Defaults.reachable_iff_valid.mpr ⟨by decide, by decide, by decide⟩
  have written : MadeFor deepLayer deepWriter := ⟨Defaults.initial, .initial, rfl⟩
  have read : MadeFor deepLayer deepReader := ⟨_, changed, rfl⟩
  have laws := deepRecording.lawful
  exact settled_roundTrip laws.toZlibLaws laws.toFrameLaws laws.toFrameBounds
    laws.toDictionaryLaws written read written read .reversed .inOrder .inOrder .reversed rfl rfl
    (by decide) (fun _ => by decide)

/-- The envelope of the sample data of four samples. -/
def deepEnvelope : Bytes :=
  (deepWriter.compress deepRecording.coders .inOrder deepSamples [1, 1, 4]).1.toOption.getD []

/-- A layer with other names for the same sequence of sample types. -/
def renamedLayer : Layer :=
  { deepLayer with channels := [.full "a" .half, .full "b" .float, .full "c" .uint] }

/-- A layer in which two sample types of the same size have changed places. -/
def reorderedLayer : Layer :=
  { deepLayer with channels := [.full "A" .half, .full "Z" .uint, .full "id" .float] }

/-- An envelope is read only by instances for the sequence of sample types that it was
written with, and only with the same number of samples. Then it is read as its writer
reads it. All other readers find it invalid. -/
theorem envelope_readable_iff (frames : coders.FrameLaws) (dictionaries : coders.DictionaryLaws)
    {otherLayer : Layer} (written : MadeFor layer writer) (read : MadeFor otherLayer reader)
    (method : layer.method = .zstd) (otherMethod : otherLayer.method = .zstd)
    (first second third : Schedule) (counted : Offsets.total offsets = .ok total)
    {envelope : Bytes}
    (compressed : (writer.compress coders first samples offsets).1 = .ok envelope)
    {otherOffsets : List Int32} {otherTotal : Nat}
    (otherCounted : Offsets.total otherOffsets = .ok otherTotal) :
    let types := layer.channels.map Channel.type
    let otherTypes := otherLayer.channels.map Channel.type
    let result := (reader.uncompress coders second envelope otherOffsets).1
    ((∃ restored, result = .ok restored) ↔ otherTypes = types ∧ otherTotal = total) ∧
      (otherTypes = types ∧ otherTotal = total →
        result = (writer.uncompress coders third envelope offsets).1) ∧
      (¬ (otherTypes = types ∧ otherTotal = total) →
        ∃ cause, result = .error (.invalid cause)) := by
  intro types otherTypes result
  have small := Offsets.total_lt counted
  have otherSmall := Offsets.total_lt otherCounted
  obtain ⟨sized, encloses⟩ := encloses_compress frames dictionaries first written.serves method
    counted compressed
  have sizes : ∀ piece ∈ pieces total layer.channels samples,
      piece.bytes.length = total * piece.type.byteSize :=
    fun _ member => length_of_mem_pieces sized member
  have word := length_piece_lt small sized
  have same : otherTypes = types ∧ otherTotal = total →
      result = .ok (settled total layer.channels samples) := by
    rintro ⟨sameTypes, rfl⟩
    rw [show result = _ from uncompress_zstd second read.serves otherMethod otherCounted envelope]
    exact decodeChannels_eq second encloses small sizes word
      (sameTypes.trans (map_type_pieces _ _ _).symm)
  have own : (writer.uncompress coders third envelope offsets).1 =
      .ok (settled total layer.channels samples) := by
    rw [uncompress_zstd third written.serves method counted]
    exact decodeChannels_eq third encloses small sizes word (map_type_pieces _ _ _).symm
  have other : ¬ (otherTypes = types ∧ otherTotal = total) →
      ∃ cause, result = .error (.invalid cause) := by
    intro differ
    rw [show result = _ from uncompress_zstd second read.serves otherMethod otherCounted envelope]
    refine decodeChannels_other second encloses otherSmall sizes word ?_
    rw [map_type_pieces]
    -- with equal types the first chunk tells the sizes apart, so there must be one
    by_cases sameTypes : otherTypes = types
    · refine .inr ⟨fun equal => differ ⟨sameTypes, equal⟩, ?_⟩
      intro none
      have noType := congrArg (List.map Piece.type) none
      rw [map_type_pieces] at noType
      exact written.serves.accepted.channels_ne_nil (List.map_eq_nil_iff.mp noType)
    · exact .inl sameTypes
  refine ⟨⟨?_, fun agree => ⟨_, same agree⟩⟩, fun agree => (same agree).trans own.symm, other⟩
  rintro ⟨restored, succeeded⟩
  by_contra differ
  obtain ⟨cause, failed⟩ := other differ
  rw [succeeded] at failed
  cases failed

/-- The envelope is read under other names and with other offsets of the same number of
samples, as its writer reads it, but not by a reader that swaps two types. -/
theorem envelope_readable_iff_names :
    ({ deepReader with channels := renamedLayer.channels }.uncompress deepRecording.coders .inOrder
        deepEnvelope [0, 4]).1 =
      (deepWriter.uncompress deepRecording.coders .reversed deepEnvelope [1, 1, 4]).1 ∧
    ∃ cause, ({ deepReader with channels := reorderedLayer.channels }.uncompress
      deepRecording.coders .inOrder deepEnvelope [1, 1, 4]).1 = .error (.invalid cause) := by
  have changed : Defaults.Reachable { Defaults.initial with zip := 9, zstd := 1 } :=
    Defaults.reachable_iff_valid.mpr ⟨by decide, by decide, by decide⟩
  have written : MadeFor deepLayer deepWriter := ⟨Defaults.initial, .initial, rfl⟩
  have renamed : MadeFor renamedLayer { deepReader with channels := renamedLayer.channels } :=
    ⟨_, changed, rfl⟩
  have reordered : MadeFor reorderedLayer { deepReader with channels := reorderedLayer.channels } :=
    ⟨_, changed, rfl⟩
  have laws := deepRecording.lawful
  have compressed : (deepWriter.compress deepRecording.coders .inOrder deepSamples [1, 1, 4]).1 =
      .ok deepEnvelope := rfl
  have counted : Offsets.total [1, 1, 4] = .ok 4 := rfl
  have recounted : Offsets.total [0, 4] = .ok 4 := rfl
  have readable := envelope_readable_iff laws.toFrameLaws laws.toDictionaryLaws written renamed rfl
    rfl .inOrder .inOrder .reversed counted compressed recounted
  have unreadable := envelope_readable_iff laws.toFrameLaws laws.toDictionaryLaws written reordered
    rfl rfl .inOrder .inOrder .reversed counted compressed counted
  exact ⟨readable.2.1 ⟨rfl, rfl⟩, unreadable.2.2 (by decide)⟩

end PixelBlocks.DeepCompressor

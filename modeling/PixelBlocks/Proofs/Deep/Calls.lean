import PixelBlocks.Proofs.Buffers
import PixelBlocks.Proofs.Deep.Channels
import PixelBlocks.Proofs.Flat.Forms

/-!
# Calls of deep instances

What the instances of a layer do with sample data, without their buffers: the byte
methods store it as a whole, and zstandard encloses its pieces in an envelope.
-/

namespace PixelBlocks

namespace Offsets

/-- The number of samples is a signed 32-bit number. -/
theorem total_lt {offsets : List Int32} {samples : Nat} (counted : total offsets = .ok samples) :
    samples < 0x80000000 := by
  obtain ⟨last, -, same⟩ := Outcome.bind_eq_ok_iff.mp counted
  cases same
  have bounded := last.toInt_lt
  omega

end Offsets

namespace DeepCompressor

section Bytes

variable {coders : Coders} {compressor : DeepCompressor}

/-- The shorter form is told from raw bytes by its length. -/
theorem unpackBytes_shorterForm {method : Method} {form : Option Bytes} {raw : Bytes}
    (decoded : ∀ compressed, form = some compressed → compressed.length < raw.length →
      unpackBytes coders method compressed raw.length = .ok raw) :
    unpackBytes coders method (FlatCompressor.shorterForm form raw) raw.length = .ok raw := by
  have asIs : unpackBytes coders method raw raw.length = .ok raw := by
    rw [unpackBytes, if_pos rfl]
  unfold FlatCompressor.shorterForm
  split
  · next compressed =>
    by_cases shorter : compressed.length < raw.length
    · rw [if_pos shorter]
      exact decoded compressed rfl shorter
    · rw [if_neg shorter]
      exact asIs
  · exact asIs

/-- The byte methods read back what they stored, be it raw or not. -/
theorem unpackBytes_packBytes (zlib : coders.ZlibLaws) (acceptable : compressor.zipLevel ≤ 9)
    (implemented : implements compressor.method = true) (plain : compressor.method ≠ .zstd)
    (raw : Bytes) :
    unpackBytes coders compressor.method (packBytes coders compressor.method compressor.zipLevel
      (compressor.prepared raw) raw) raw.length = .ok raw := by
  unfold packBytes
  apply unpackBytes_shorterForm
  intro compressed formed shorter
  have other : ¬ compressed.length = raw.length := by omega
  cases method : compressor.method with
  | uncompressed =>
    rw [method] at formed
    cases formed
  | runLength =>
    have packed : compressed = RunLength.pack (Preparation.prepare raw) := by
      simpa [prepared, method, eq_comm] using formed
    have decoded := RunLength.decompress_pack_prepare (Nat.le_refl raw.length)
    rw [unpackBytes, if_neg other, packed, decoded]
    simp
  | zipLine =>
    have packed : compressed = coders.deflate compressor.zipLevel (Preparation.prepare raw) := by
      simpa [prepared, method, eq_comm] using formed
    have decoded := FlatCompressor.decodeZip_deflate zlib acceptable raw
    rw [unpackBytes, if_neg other, packed, decoded]
    simp
  | zstd => exact absurd method plain
  | zipBlock | piz | pxr24 | b44 | b44a | dwaa _ | dwab _ =>
    rw [method] at implemented
    cases implemented

end Bytes

section Schedules

variable (coders : Coders) (compressor : DeepCompressor) (bytes : Bytes)

/-- The chunks of all channels do not depend on the order in which they are made. -/
theorem channelChunks_eq_mapM (schedule : Schedule) (level : UInt8)
    (ranges : List ChannelRange) :
    channelChunks coders schedule level bytes ranges = ranges.mapM fun range =>
      Chunk.encode coders (.ofSampleType range.type level) (range.slice bytes) :=
  Schedule.runAll_eq_mapM ..

/-- So their envelope does not depend on it either. -/
theorem encodeChannels_eq_mapM (schedule : Schedule) (level : UInt8)
    (ranges : List ChannelRange) :
    encodeChannels coders schedule level bytes ranges = (do
      let chunks ← ranges.mapM fun range =>
        Chunk.encode coders (.ofSampleType range.type level) (range.slice bytes)
      Envelope.encode chunks) := by
  rw [encodeChannels, channelChunks_eq_mapM]

/-- The samples in an envelope do not depend on the order in which its chunks are read. -/
theorem decodeChannels_eq_mapM (schedule : Schedule) (channels : ChannelList) (total : Nat) :
    decodeChannels coders schedule channels bytes total = (do
      let chunks ← Envelope.decode bytes channels.length
      let expected ← expectChunks total channels chunks
      let decoded ← expected.mapM (decodeChunk coders)
      return decoded.flatten) := by
  simp only [decodeChannels, Schedule.runAll_eq_mapM]

/-- Compressing sample data does not depend on the schedule. -/
theorem compress_schedule (first second : Schedule) (offsets : List Int32) :
    compressor.compress coders first bytes offsets =
      compressor.compress coders second bytes offsets := by
  simp only [compress, channelChunks_eq_mapM]

/-- Decompressing sample data does not depend on the schedule. -/
theorem uncompress_schedule (first second : Schedule) (offsets : List Int32) :
    compressor.uncompress coders first bytes offsets =
      compressor.uncompress coders second bytes offsets := by
  simp only [uncompress, decodeChannels_eq_mapM]

end Schedules

section Samples

variable {coders : Coders} {layer : Layer} {writer reader : DeepCompressor}
variable {offsets : List Int32} {total : Nat} {samples : Bytes}

/-- Sample data that was compressed has the ranges of its channels. -/
theorem exists_channelRanges (schedule : Schedule) (writes : Serves layer writer)
    (counted : Offsets.total offsets = .ok total) {stored : Bytes}
    (compressed : (writer.compress coders schedule samples offsets).1 = .ok stored) :
    ∃ ranges, channelRanges layer.channels total samples.length = .ok ranges := by
  rw [compress_fst, counted, Outcome.ok_bind, writes.channels] at compressed
  obtain ⟨ranges, found, -⟩ := Outcome.bind_eq_ok_iff.mp compressed
  exact ⟨ranges, found⟩

/-- What an instance makes of sample data that has the ranges of its channels. -/
theorem compress_eq (coders : Coders) (schedule : Schedule) (writes : Serves layer writer)
    (counted : Offsets.total offsets = .ok total) {ranges : List ChannelRange}
    (found : channelRanges layer.channels total samples.length = .ok ranges) :
    (writer.compress coders schedule samples offsets).1 =
      if layer.method = .zstd then encodeChannels coders schedule writer.zstdLevel samples ranges
      else .ok (packBytes coders writer.method writer.zipLevel (writer.prepared samples)
        samples) := by
  have kind := writes.method
  rw [compress_fst, counted, Outcome.ok_bind, writes.channels, found, Outcome.ok_bind]
  simp only [kind, packed]

/-- An envelope that was returned encloses the pieces of the sample data, which cover it. -/
theorem encloses_compress (frames : coders.FrameLaws) (dictionaries : coders.DictionaryLaws)
    (schedule : Schedule) (writes : Serves layer writer) (method : layer.method = .zstd)
    (counted : Offsets.total offsets = .ok total) {envelope : Bytes}
    (compressed : (writer.compress coders schedule samples offsets).1 = .ok envelope) :
    samples.length = total * layer.channels.bytesPerPixel ∧
      Encloses coders writer.zstdLevel (pieces total layer.channels samples) envelope := by
  obtain ⟨ranges, found⟩ := exists_channelRanges schedule writes counted compressed
  obtain ⟨covered, cut⟩ := map_piece_channelRanges found
  rw [compress_eq coders schedule writes counted found, if_pos method] at compressed
  have encloses := encloses_encodeChannels frames dictionaries compressed
  rw [cut] at encloses
  exact ⟨covered, encloses⟩

/-- Pieces are small enough for chunks. -/
theorem length_piece_lt (small : total < 0x80000000)
    (sized : samples.length = total * layer.channels.bytesPerPixel) :
    ∀ piece ∈ pieces total layer.channels samples, piece.bytes.length < Size.bound := by
  intro piece member
  have narrow : piece.type.byteSize ≤ 4 := by cases piece.type <;> decide
  have product := Nat.mul_le_mul (Nat.le_of_lt small) narrow
  rw [length_of_mem_pieces sized member]
  simp only [Size.bound]
  omega

/-- An envelope is read channel by channel. -/
theorem uncompress_zstd (schedule : Schedule) (reads : Serves layer reader)
    (method : layer.method = .zstd) (counted : Offsets.total offsets = .ok total)
    (envelope : Bytes) :
    (reader.uncompress coders schedule envelope offsets).1 =
      decodeChannels coders schedule layer.channels envelope total := by
  rw [uncompress_fst, counted, Outcome.ok_bind, if_pos (reads.method.trans method),
    reads.channels]

/-- Stored bytes of one of the byte methods are read as a whole. -/
theorem uncompress_bytes (schedule : Schedule) (reads : Serves layer reader)
    (method : layer.method ≠ .zstd) (counted : Offsets.total offsets = .ok total)
    (sized : samples.length = total * layer.channels.bytesPerPixel)
    (word : samples.length < Size.bound) (stored : Bytes) :
    (reader.uncompress coders schedule stored offsets).1 =
      unpackBytes coders layer.method stored samples.length := by
  have kind := reads.method
  have product : Size.mul? total layer.channels.bytesPerPixel = some samples.length :=
    Size.mul?_eq_some_iff.mpr ⟨by rwa [← sized], sized⟩
  rw [uncompress_fst, counted, Outcome.ok_bind, kind, if_neg method, decodeBuffer,
    reads.channels, product, kind]

/-- Every range is as long as the type of a channel asks for. -/
theorem length_slice {ranges : List ChannelRange}
    (found : channelRanges layer.channels total samples.length = .ok ranges)
    {range : ChannelRange} (member : range ∈ ranges) :
    ∃ channel ∈ layer.channels, (range.slice samples).length = total * channel.type.byteSize := by
  obtain ⟨sized, cut⟩ := map_piece_channelRanges found
  have piece : ChannelRange.piece samples range ∈ pieces total layer.channels samples := by
    rw [← cut]
    exact List.mem_map_of_mem member
  have typed : range.type ∈ layer.channels.map Channel.type := by
    rw [← map_type_pieces total layer.channels samples]
    exact List.mem_map_of_mem piece
  obtain ⟨channel, listed, type⟩ := List.mem_map.mp typed
  refine ⟨channel, listed, ?_⟩
  rw [type]
  exact length_of_mem_pieces sized piece

end Samples

end DeepCompressor

end PixelBlocks

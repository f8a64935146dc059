import PixelBlocks.Proofs.Chunk
import PixelBlocks.Proofs.Flat
import PixelBlocks.Proofs.Transform.RunLength
import PixelBlocks.Proofs.Transform.Segments

/-!
# Compressed forms of blocks

For every method that is implemented, a block has a compressed form, or the method has
none, and a shorter form decodes to the block, with floats rounded if the method does
so. Writer and reader need not be the same instance.
-/

namespace PixelBlocks.FlatCompressor

/-- The form that a writer gives a block, which a reader decodes to certain bytes if it
is shorter than the block. -/
structure Carries (coders : Coders) (writer reader : FlatCompressor) (bounds : Rectangle)
    (raw restored : Bytes) (form : Option Bytes) : Prop where
  encoded : writer.encodedForm coders (writer.prepared raw) raw bounds = .ok form
  decoded : ∀ compressed, form = some compressed → compressed.length < raw.length →
    reader.decodedForm coders compressed bounds raw.length = .ok restored

variable {coders : Coders} {writer reader : FlatCompressor} {bounds : Rectangle} {raw : Bytes}

/-- Without compression there is nothing to decode. -/
theorem carries_uncompressed (writes : writer.method = .uncompressed) :
    Carries coders writer reader bounds raw raw none :=
  ⟨by simp only [encodedForm, writes], by simp⟩

/-- Packed runs bring back the prepared block. -/
theorem carries_runLength (writes : writer.method = .runLength)
    (reads : reader.method = .runLength) :
    Carries coders writer reader bounds raw raw
      (some (RunLength.pack (Preparation.prepare raw))) := by
  refine ⟨by simp only [encodedForm, prepared, writes], ?_⟩
  rintro compressed ⟨⟩ -
  simp only [decodedForm, reads]
  exact RunLength.decompress_pack_prepare (Nat.le_refl raw.length)

/-- A zlib stream brings back the prepared block. -/
theorem decodeZip_deflate (zlib : coders.ZlibLaws) {level : UInt8} (acceptable : level ≤ 9)
    (raw : Bytes) :
    decodeZip coders (coders.deflate level (Preparation.prepare raw)) raw.length = .ok raw := by
  have fits : (Preparation.prepare raw).length ≤ raw.length := by simp
  rw [decodeZip, zlib.inflate_deflate level raw.length _ acceptable fits]
  simp

/-- Zlib streams of scan lines or of blocks bring back the block. -/
theorem carries_zip (zlib : coders.ZlibLaws) (acceptable : writer.zipLevel ≤ 9)
    (writes : writer.method = .zipLine ∨ writer.method = .zipBlock)
    (same : reader.method = writer.method) :
    Carries coders writer reader bounds raw raw
      (some (coders.deflate writer.zipLevel (Preparation.prepare raw))) := by
  have decoded := decodeZip_deflate zlib acceptable raw
  rcases writes with line | block
  · refine ⟨by simp only [encodedForm, prepared, line], ?_⟩
    rintro compressed ⟨⟩ -
    simpa only [decodedForm, same, line] using decoded
  · refine ⟨by simp only [encodedForm, prepared, block], ?_⟩
    rintro compressed ⟨⟩ -
    simpa only [decodedForm, same, block] using decoded

/-- The parameters of the chunk of a block are valid if the level is. -/
theorem validate_chunkParameters (acceptable : 1 ≤ writer.zstdLevel ∧ writer.zstdLevel ≤ 9) :
    writer.chunkParameters.validate = .ok () := by
  rw [ChunkParameters.validate_eq_ok_iff]
  refine ⟨acceptable, ?_, ?_⟩
  · simp only [chunkParameters, ChunkParameters.shuffle]
    rcases writer.channels.uniformType? with _ | _ | _ | _ <;> decide
  · intro truncating
    cases truncating

/-- The chunks of blocks have no dictionary. -/
theorem chunkParameters_ne_dictionary : writer.chunkParameters.preprocessing ≠ .dictionary := by
  simp [chunkParameters, ChunkParameters.shuffle]

/-- A block has a chunk, as long as the bound of its frame is a 32-bit number. -/
theorem exists_chunk (total : coders.FrameBounds)
    (acceptable : 1 ≤ writer.zstdLevel ∧ writer.zstdLevel ≤ 9)
    (fits : coders.frameBound raw.length < 0x100000000) :
    ∃ chunk, Chunk.encode coders writer.chunkParameters raw = .ok chunk :=
  Chunk.exists_encode total (fun asked => absurd asked chunkParameters_ne_dictionary)
    (validate_chunkParameters acceptable) fits

/-- The chunk of a block brings it back. -/
theorem exists_carries_zstd (frames : coders.FrameLaws) (total : coders.FrameBounds)
    (acceptable : 1 ≤ writer.zstdLevel ∧ writer.zstdLevel ≤ 9)
    (writes : writer.method = .zstd) (reads : reader.method = .zstd)
    (word : raw.length < Size.bound) (fits : coders.frameBound raw.length < 0x100000000) :
    ∃ form, Carries coders writer reader bounds raw raw form := by
  obtain ⟨chunk, encoded⟩ := exists_chunk total acceptable fits
  obtain ⟨dictionary, payload, written⟩ := Chunk.exists_written frames
    (fun asked => absurd asked chunkParameters_ne_dictionary) encoded
  refine ⟨some chunk, by simp only [encodedForm, writes, encoded]; rfl, ?_⟩
  rintro compressed ⟨⟩ -
  simp only [decodedForm, reads]
  exact written.decode_eq word

/-- The segments, the planes and the stream of a block: its stream is the zlib stream of its
planes, and an empty block has an empty one. -/
structure Streamed (coders : Coders) (writer : FlatCompressor) (bounds : Rectangle) (raw : Bytes)
    (segments : List Planes.Segment) (planes stream : Bytes) : Prop where
  listed : Planes.segments writer.channels bounds = .ok segments
  filled : Planes.rawSize segments = raw.length
  encoded : Planes.encode segments raw = .ok planes
  deflated : stream = if raw = [] then [] else coders.deflate writer.zipLevel planes

/-- What a writer makes of a block is its stream. -/
theorem Streamed.encodePlanes_eq {segments : List Planes.Segment} {planes stream : Bytes}
    (streamed : Streamed coders writer bounds raw segments planes stream) :
    writer.encodePlanes coders raw bounds = .ok stream := by
  rw [streamed.deflated, encodePlanes]
  by_cases empty : raw = []
  · rw [if_pos (List.isEmpty_iff.mpr empty), if_pos empty]
  · rw [if_neg (by rwa [List.isEmpty_iff]), if_neg empty, streamed.listed, Outcome.ok_bind,
      streamed.encoded]
    rfl

/-- The stream of a block that it makes shorter brings back the block with rounded floats. -/
theorem Streamed.decodePlanes_eq {segments : List Planes.Segment} {planes stream : Bytes}
    (streamed : Streamed coders writer bounds raw segments planes stream) (zlib : coders.ZlibLaws)
    (acceptable : writer.zipLevel ≤ 9) (channels : reader.channels = writer.channels)
    (shorter : stream.length < raw.length) :
    reader.decodePlanes coders stream bounds raw.length =
      .ok (Planes.rounded segments raw) := by
  obtain ⟨found, again, counted, decoded⟩ := Planes.exists_encode streamed.filled.symm
  cases streamed.encoded.symm.trans again
  have fits : planes.length ≤ raw.length := by
    rw [counted, ← streamed.filled]
    exact Planes.planeSize_le segments
  have present : raw ≠ [] := by
    rintro rfl
    exact absurd shorter (Nat.not_lt_zero _)
  have deflated := streamed.deflated
  rw [if_neg present] at deflated
  -- an empty stream would stand for an empty block
  have stored : ¬ stream.isEmpty = true := by
    rw [deflated, List.isEmpty_iff]
    exact zlib.deflate_ne_nil _ planes acceptable
  rw [decodePlanes, if_neg stored, deflated,
    zlib.inflate_deflate _ raw.length planes acceptable fits, channels]
  simp only [streamed.listed, Outcome.ok_bind, decoded]

/-- A block that has a size has a stream. Its segments have the types of channels. -/
theorem exists_streamed (coders : Coders)
    (sized : writer.channels.byteSize bounds = .ok raw.length) :
    ∃ segments planes stream, Streamed coders writer bounds raw segments planes stream ∧
      ∀ segment ∈ segments, ∃ channel ∈ writer.channels, channel.type = segment.type := by
  obtain ⟨segments, found, filled, typed⟩ := Planes.exists_segments sized
  obtain ⟨planes, encoded, -⟩ := Planes.exists_encode filled.symm
  exact ⟨segments, planes, _, ⟨found, filled, encoded, rfl⟩, typed⟩

/-- The stream of the planes of a block is its compressed form. -/
theorem carries_planes {stream restored : Bytes} (writes : writer.method = .pxr24)
    (reads : reader.method = .pxr24) (encoded : writer.encodePlanes coders raw bounds = .ok stream)
    (decoded : stream.length < raw.length →
      reader.decodePlanes coders stream bounds raw.length = .ok restored) :
    Carries coders writer reader bounds raw restored (some stream) := by
  refine ⟨by simp only [encodedForm, writes, encoded]; rfl, ?_⟩
  rintro compressed ⟨⟩ shorter
  simpa only [decodedForm, reads] using decoded shorter

end PixelBlocks.FlatCompressor

import PixelBlocks.Proofs.Flat.Blocks
import PixelBlocks.Proofs.Flat.Corruption
import PixelBlocks.Proofs.Layer.Samples

/-!
# Which blocks are compressed

Compressing a block succeeds exactly at the places of the layer's blocks and for bytes of the
size of the block. A wrong place is invalid whatever the bytes are. At a right place, bytes of
any other length are a matter of capacity. Both are found before the method matters. A block of
the right length has a compressed form: its planes take all of its bytes, and its chunk has
acceptable parameters and keeps to its bounds.
-/

namespace PixelBlocks.FlatCompressor

open Outcome

variable {coders : Coders} {layer : Layer} {compressor : FlatCompressor} {place : Place}
variable {bounds : Rectangle} {raw : Bytes} {fault : Fault}

/-- Nothing is done at a place that is refused. -/
theorem compress_of_boundsOf_error (refused : compressor.boundsOf place = .error fault) :
    compressor.compress coders raw place = (.error fault, compressor) := by
  rw [compress, refused]

/-- Nothing is done with bytes of a length that is refused. -/
theorem compress_of_checkLength_error (placed : compressor.boundsOf place = .ok bounds)
    (refused : compressor.checkLength raw bounds = .error fault) :
    compressor.compress coders raw place = (.error fault, compressor) := by
  simp only [compress, placed, compressSection, refused]

/-- At an accepted place, bytes of a wrong length are a matter of capacity. -/
theorem Serves.exists_checkLength_error (serves : Serves layer compressor)
    (countable : layer.channels.Countable) (placed : compressor.boundsOf place = .ok bounds)
    (other : layer.channels.byteSize bounds ≠ .ok raw.length) :
    ∃ cause, compressor.checkLength raw bounds = .error (.capacity cause) := by
  obtain ⟨roomy, corner, found⟩ :=
    serves.accepted.roomFrom_of_contains (serves.hasBlock_of_boundsOf placed).2
  rw [checkLength, serves.channels]
  rw [ChannelList.byteSize_eq roomy countable found] at other ⊢
  split at other
  · next fits =>
    rw [if_pos fits, ok_bind]
    exact ⟨_, if_neg fun same => other (by rw [same])⟩
  · next large =>
    rw [if_neg large]
    exact ⟨_, rfl⟩

/-- What a zstandard encoder has to do for a block: it makes frames that keep their bounds, and
the bound for the block is a 32-bit number. -/
structure Framed (coders : Coders) (raw : Bytes) : Prop where
  frames : coders.FrameBounds
  fits : coders.frameBound raw.length < 0x100000000

/-- A block of the right length has a compressed form in every method that is implemented, or
the method has none. -/
theorem Serves.exists_encodedForm (serves : Serves layer compressor)
    (implemented : layer.method.isImplemented = true)
    (framed : layer.method = .zstd → Framed coders raw)
    (sized : layer.channels.byteSize bounds = .ok raw.length) (scratch : Bytes) :
    ∃ form, compressor.encodedForm coders scratch raw bounds = .ok form := by
  rw [← serves.method] at implemented framed
  rw [← serves.channels] at sized
  unfold encodedForm
  cases method : compressor.method with
  | uncompressed | runLength | zipLine | zipBlock => exact ⟨_, rfl⟩
  | pxr24 =>
    obtain ⟨segments, planes, stream, streamed, -⟩ := exists_streamed coders sized
    exact ⟨some stream, by simp only [streamed.encodePlanes_eq]; rfl⟩
  | zstd =>
    obtain ⟨frames, fits⟩ := framed method
    obtain ⟨chunk, encoded⟩ := exists_chunk frames serves.zstdLevel fits
    exact ⟨some chunk, by simp only [encoded]; rfl⟩
  | piz | b44 | b44a | dwaa _ | dwab _ =>
    rw [method] at implemented
    cases implemented

/-- Methods that are not implemented have no form for any bytes. -/
theorem encodedForm_unsupported (missing : compressor.method.isImplemented = false)
    (scratch raw : Bytes) (bounds : Rectangle) :
    compressor.encodedForm coders scratch raw bounds =
      .error (.unsupported (.flatMethod compressor.method)) := by
  unfold encodedForm
  cases method : compressor.method with
  | uncompressed | runLength | zipLine | zipBlock | pxr24 | zstd =>
    rw [method] at missing
    cases missing
  | piz | b44 | b44a | dwaa _ | dwab _ => rfl

/-- A block of the right length is stored in the shorter of its forms. -/
theorem Serves.exists_stored (serves : Serves layer compressor)
    (implemented : layer.method.isImplemented = true)
    (framed : layer.method = .zstd → Framed coders raw)
    (placed : compressor.boundsOf place = .ok bounds)
    (sized : layer.channels.byteSize bounds = .ok raw.length) :
    ∃ form, compressor.encodedForm coders (compressor.prepared raw) raw bounds = .ok form ∧
      (compressor.compress coders raw place).1 = .ok (shorterForm form raw) := by
  obtain ⟨form, formed⟩ :=
    serves.exists_encodedForm implemented framed sized (compressor.prepared raw)
  rw [← serves.channels] at sized
  exact ⟨form, formed, compress_eq_ok placed sized formed⟩

/-- A block of the right length is unsupported in a method that is not implemented. -/
theorem Serves.compress_unsupported (serves : Serves layer compressor)
    (missing : layer.method.isImplemented = false)
    (placed : compressor.boundsOf place = .ok bounds)
    (sized : layer.channels.byteSize bounds = .ok raw.length) :
    (compressor.compress coders raw place).1 =
      .error (.unsupported (.flatMethod layer.method)) := by
  rw [← serves.channels] at sized
  rw [← serves.method] at missing ⊢
  rw [compress_fst, placed, ok_bind, checkLength_eq_ok_iff.mpr sized, ok_bind,
    encodedForm_unsupported missing]
  rfl

/-- Which bytes are compressed at which places. A place without a block is invalid whatever the
bytes are, and bytes that do not have the size of the block are a matter of capacity, both in
every method and with any coders, and the instance stays as it is. For the others, a method that is
not implemented is unsupported. An implemented method has a form for them, so it compresses
exactly the bytes of the size of a block at its place, as long as a zstandard encoder makes frames
within their bounds. -/
theorem compress_domain (made : MadeFor layer compressor)
    (narrow : layer.window.size.x.toNat < 0x80000000)
    (short : layer.window.size.y.toNat < 0x80000000)
    (factors : ∀ channel ∈ layer.channels,
      channel.sampling.x.toNat < 0x80000000 ∧ channel.sampling.y.toNat < 0x80000000)
    (place : Place) :
    ((∀ bounds, ¬ layer.HasBlock place bounds) → ∃ cause, ∀ coders raw,
      compressor.compress coders raw place = (.error (.invalid cause), compressor)) ∧
    ∀ raw : Bytes,
      (∀ bounds, layer.HasBlock place bounds → layer.channels.byteSize bounds ≠ .ok raw.length →
        ∃ cause, ∀ coders,
          compressor.compress coders raw place = (.error (.capacity cause), compressor)) ∧
      (layer.method ∉ [Method.uncompressed, .runLength, .zipLine, .zipBlock, .pxr24, .zstd] →
        ∀ bounds, layer.HasBlock place bounds → layer.channels.byteSize bounds = .ok raw.length →
          ∀ coders, (compressor.compress coders raw place).1 =
            .error (.unsupported (.flatMethod layer.method))) ∧
      (layer.method ∈ [Method.uncompressed, .runLength, .zipLine, .zipBlock, .pxr24, .zstd] →
        ∀ coders, (layer.method = .zstd → Framed coders raw) →
          (∀ bounds, layer.HasBlock place bounds → layer.channels.byteSize bounds = .ok raw.length →
            ∃ form, compressor.encodedForm coders (compressor.prepared raw) raw bounds = .ok form ∧
              (compressor.compress coders raw place).1 = .ok (shorterForm form raw)) ∧
          ((∃ stored, (compressor.compress coders raw place).1 = .ok stored) ↔
            ∃ bounds, layer.HasBlock place bounds ∧
              layer.channels.byteSize bounds = .ok raw.length)) := by
  have serves := made.serves
  have countable : layer.channels.Countable := fun channel member => (factors channel member).2
  obtain ⟨corner, found⟩ := Rectangle.exists_opposite serves.accepted.window narrow short
  have placed {bounds : Rectangle} :
      compressor.boundsOf place = .ok bounds ↔ layer.HasBlock place bounds :=
    serves.boundsOf_eq_ok_iff found
  -- the place is decided first, then the length, and only then the method
  simp only [← Method.isImplemented_eq_true_iff, ← placed]
  refine ⟨?_, fun raw => ⟨?_, ?_, ?_⟩⟩
  · intro nowhere
    rcases (compressor.invalidAtWorst_boundsOf place).cases with
      ⟨bounds, accepted⟩ | ⟨cause, refused⟩
    · exact absurd accepted (nowhere bounds)
    · exact ⟨cause, fun coders raw => compress_of_boundsOf_error refused⟩
  · intro bounds accepted other
    obtain ⟨cause, refused⟩ := serves.exists_checkLength_error countable accepted other
    exact ⟨cause, fun coders => compress_of_checkLength_error accepted refused⟩
  · intro missing bounds accepted sized coders
    exact serves.compress_unsupported (Bool.eq_false_iff.mpr missing) accepted sized
  · intro implemented coders framed
    refine ⟨fun bounds => serves.exists_stored implemented framed, ?_, ?_⟩
    · rintro ⟨stored, succeeded⟩
      obtain ⟨bounds, accepted, sized, -⟩ := compress_eq_ok_iff.mp succeeded
      rw [serves.channels] at sized
      exact ⟨bounds, accepted, sized⟩
    · rintro ⟨bounds, accepted, sized⟩
      obtain ⟨form, -, stored⟩ := serves.exists_stored implemented framed accepted sized
      exact ⟨_, stored⟩

/-- The bytes of a tile are stored, no bytes at all are too few for it, and a tile with a corner
outside of the window is invalid. -/
theorem compress_domain_tile :
    (∃ stored, (tileWriter.compress tileRecording.coders tileBytes
      (.tile ⟨⟨-2, -1⟩, ⟨4, 4⟩⟩)).1 = .ok stored) ∧
    (∃ cause, tileWriter.compress tileRecording.coders [] (.tile ⟨⟨-2, -1⟩, ⟨4, 4⟩⟩) =
      (.error (.capacity cause), tileWriter)) ∧
    ∃ cause, tileWriter.compress tileRecording.coders tileBytes (.tile ⟨⟨-6, -1⟩, ⟨4, 4⟩⟩) =
      (.error (.invalid cause), tileWriter) := by
  have made : MadeFor tiledLayer tileWriter := ⟨Defaults.initial, .initial, rfl⟩
  have block : tiledLayer.HasBlock (.tile ⟨⟨-2, -1⟩, ⟨4, 4⟩⟩) ⟨⟨-2, -1⟩, ⟨4, 4⟩⟩ := by decide
  have nowhere : ∀ bounds, ¬ tiledLayer.HasBlock (.tile ⟨⟨-6, -1⟩, ⟨4, 4⟩⟩) bounds := by
    rintro bounds ⟨-, inside, -⟩
    exact absurd inside.left (by decide)
  have sized : tiledLayer.channels.byteSize ⟨⟨-2, -1⟩, ⟨4, 4⟩⟩ = .ok tileBytes.length := rfl
  obtain ⟨-, inside⟩ :=
    compress_domain made (by decide) (by decide) (by decide) (.tile ⟨⟨-2, -1⟩, ⟨4, 4⟩⟩)
  obtain ⟨outside, -⟩ :=
    compress_domain made (by decide) (by decide) (by decide) (.tile ⟨⟨-6, -1⟩, ⟨4, 4⟩⟩)
  obtain ⟨-, -, stores⟩ := inside tileBytes
  obtain ⟨few, -⟩ := inside []
  obtain ⟨cause, refused⟩ := few _ block (by rw [sized]; nofun)
  obtain ⟨invalid, misplaced⟩ := outside nowhere
  have framed : Framed tileRecording.coders tileBytes :=
    ⟨tileRecording.lawful.toFrameBounds, by decide⟩
  exact ⟨(stores (by decide) _ fun _ => framed).2.mpr ⟨_, block, sized⟩, ⟨cause, refused _⟩,
    ⟨invalid, misplaced _ _⟩⟩

end PixelBlocks.FlatCompressor

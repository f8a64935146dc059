import PixelBlocks.Proofs.Buffers
import PixelBlocks.Proofs.Layer

/-!
# Instances of a flat layer

All instances that were made for a layer agree on everything but their levels and
buffers. A stored block has the raw length exactly if it is raw, so whoever reads it
knows which of the two forms to expect: the shorter form of a block is read back if
its compressed form is decoded whenever that is shorter.
-/

namespace PixelBlocks.FlatCompressor

/-- An instance that a process made for a layer and used any number of times: its
buffers hold anything. -/
def MadeFor (layer : Layer) (compressor : FlatCompressor) : Prop :=
  ∃ defaults : Defaults, defaults.Reachable ∧ build defaults layer = .ok compressor.clear

/-- What an instance takes over from its layer, and the levels that it may have. -/
structure Serves (layer : Layer) (compressor : FlatCompressor) : Prop where
  accepted : layer.Accepted
  flat : layer.deep = false
  method : compressor.method = layer.method
  channels : compressor.channels = layer.channels
  window : compressor.window = layer.window
  largest : compressor.largest = layer.largestBlock
  scanLines : compressor.scanLines = layer.method.scanLines
  zipLevel : compressor.zipLevel ≤ 9
  zstdLevel : 1 ≤ compressor.zstdLevel ∧ compressor.zstdLevel ≤ 9

/-- Making an instance takes everything from the layer but the levels. -/
theorem MadeFor.serves {layer : Layer} {compressor : FlatCompressor}
    (made : MadeFor layer compressor) : Serves layer compressor := by
  obtain ⟨defaults, reachable, built⟩ := made
  obtain ⟨⟨⟩, valid, built⟩ := Outcome.bind_eq_ok_iff.mp built
  cases deep : layer.deep with
  | true =>
    rw [deep] at built
    cases built
  | false =>
    simp only [deep, Bool.false_eq_true, if_false, clear, Outcome.pure_eq_ok, Except.ok.injEq,
      FlatCompressor.mk.injEq] at built
    obtain ⟨method, channels, window, largest, scanLines, zipLevel, zstdLevel, -, -⟩ := built
    have accepted := Layer.validate_eq_ok_iff.mp valid
    refine ⟨accepted, deep, method.symm, channels.symm, window.symm, largest.symm, scanLines.symm,
      ?_, ?_⟩
    · rw [← zipLevel]
      exact reachable.valid.zip
    · rw [← zstdLevel]
      exact accepted.effectiveZstdLevel_bounds reachable.valid

/-- Every accepted layer of flat data has an instance. -/
theorem exists_build (defaults : Defaults) {layer : Layer} (accepted : layer.Accepted)
    (flat : layer.deep = false) : ∃ compressor, build defaults layer = .ok compressor := by
  rw [build, Layer.validate_eq_ok_iff.mpr accepted, Outcome.ok_bind, flat]
  exact ⟨_, rfl⟩

/-- Instances of one layer accept the same places, with the same rectangles. -/
theorem Serves.boundsOf_eq {layer : Layer} {first second : FlatCompressor}
    (one : Serves layer first) (other : Serves layer second) (place : Place) :
    first.boundsOf place = second.boundsOf place := by
  have window : first.window = second.window := one.window.trans other.window.symm
  have largest : first.largest = second.largest := one.largest.trans other.largest.symm
  have scanLines : first.scanLines = second.scanLines := one.scanLines.trans other.scanLines.symm
  cases place with
  | scanLines row => simp only [boundsOf, blockAt, window, scanLines]
  | tile bounds => simp only [boundsOf, validateTile, window, largest]

section Stored

variable {coders : Coders} {compressor : FlatCompressor} {place : Place} {bounds : Rectangle}
variable {raw restored : Bytes} {form : Option Bytes}

/-- The shorter form is not longer than the raw block. -/
theorem length_shorterForm_le (form : Option Bytes) (raw : Bytes) :
    (shorterForm form raw).length ≤ raw.length := by
  unfold shorterForm
  split
  · split <;> omega
  · exact Nat.le_refl _

/-- A raw block is accepted exactly if its length is the size of the rectangle. -/
theorem checkLength_eq_ok_iff :
    compressor.checkLength raw bounds = .ok () ↔
      compressor.channels.byteSize bounds = .ok raw.length := by
  rw [checkLength]
  cases compressor.channels.byteSize bounds with
  | error fault => simp
  | ok expected => simp [eq_comm]

/-- A block is compressed exactly if its place is accepted, its length is the size of its
rectangle, and it has a compressed form. Then it is stored in the shorter form. -/
theorem compress_eq_ok_iff {stored : Bytes} :
    (compressor.compress coders raw place).1 = .ok stored ↔
      ∃ bounds, compressor.boundsOf place = .ok bounds ∧
        compressor.channels.byteSize bounds = .ok raw.length ∧
        ∃ form, compressor.encodedForm coders (compressor.prepared raw) raw bounds = .ok form ∧
          shorterForm form raw = stored := by
  simp only [compress_fst, Outcome.bind_eq_ok_iff, Outcome.pure_eq_ok, Except.ok.injEq,
    ← checkLength_eq_ok_iff]
  constructor
  · rintro ⟨bounds, placed, ⟨⟩, checked, formed⟩
    exact ⟨bounds, placed, checked, formed⟩
  · rintro ⟨bounds, placed, checked, formed⟩
    exact ⟨bounds, placed, (), checked, formed⟩

/-- A block that has a compressed form is stored in the shorter form. -/
theorem compress_eq_ok (placed : compressor.boundsOf place = .ok bounds)
    (sized : compressor.channels.byteSize bounds = .ok raw.length)
    (formed : compressor.encodedForm coders (compressor.prepared raw) raw bounds = .ok form) :
    (compressor.compress coders raw place).1 = .ok (shorterForm form raw) :=
  compress_eq_ok_iff.mpr ⟨bounds, placed, sized, form, formed, rfl⟩

/-- A place with a rectangle of some size is read as the raw form of that size. -/
theorem uncompress_eq_rawForm (placed : compressor.boundsOf place = .ok bounds) {expected : Nat}
    (sized : compressor.channels.byteSize bounds = .ok expected) (stored : Bytes) :
    (compressor.uncompress coders stored place).1 =
      compressor.rawForm coders stored bounds expected := by
  rw [uncompress_fst, placed, Outcome.ok_bind, sized, Outcome.ok_bind]

/-- Stored bytes of the raw length are the block. -/
theorem uncompress_raw (placed : compressor.boundsOf place = .ok bounds)
    (sized : compressor.channels.byteSize bounds = .ok raw.length)
    (implemented : compressor.method.isImplemented = true) :
    (compressor.uncompress coders raw place).1 = .ok raw := by
  rw [uncompress_eq_rawForm placed sized, rawForm, if_neg (by simp [implemented]), if_pos rfl]

/-- Shorter stored bytes are decoded. -/
theorem uncompress_compressed {compressed : Bytes} (placed : compressor.boundsOf place = .ok bounds)
    (sized : compressor.channels.byteSize bounds = .ok raw.length)
    (implemented : compressor.method.isImplemented = true)
    (shorter : compressed.length < raw.length)
    (decoded : compressor.decodedForm coders compressed bounds raw.length = .ok restored)
    (same : restored.length = raw.length) :
    (compressor.uncompress coders compressed place).1 = .ok restored := by
  have other : ¬ compressed.length = raw.length := by omega
  rw [uncompress_eq_rawForm placed sized, rawForm, if_neg (by simp [implemented]), if_neg other,
    decoded, Outcome.ok_bind, if_pos same]

/-- What becomes of a block that is stored in the shorter form: the raw block itself,
or what its compressed form decodes to. -/
def returned (form : Option Bytes) (raw restored : Bytes) : Bytes :=
  match form with
  | some compressed => if compressed.length < raw.length then restored else raw
  | none => raw

/-- The shorter form is told from the raw block by its length, so it is read back if
compressed forms are decoded whenever they are shorter. -/
theorem uncompress_shorterForm (placed : compressor.boundsOf place = .ok bounds)
    (sized : compressor.channels.byteSize bounds = .ok raw.length)
    (implemented : compressor.method.isImplemented = true)
    (decoded : ∀ compressed, form = some compressed → compressed.length < raw.length →
      compressor.decodedForm coders compressed bounds raw.length = .ok restored)
    (same : restored.length = raw.length) :
    (compressor.uncompress coders (shorterForm form raw) place).1 =
      .ok (returned form raw restored) := by
  cases form with
  | none => exact uncompress_raw placed sized implemented
  | some compressed =>
    by_cases shorter : compressed.length < raw.length
    · rw [shorterForm, if_pos shorter, returned, if_pos shorter]
      exact uncompress_compressed placed sized implemented shorter
        (decoded compressed rfl shorter) same
    · rw [shorterForm, if_neg shorter, returned, if_neg shorter]
      exact uncompress_raw placed sized implemented

end Stored

end PixelBlocks.FlatCompressor

import PixelBlocks.Proofs.Deep.Corruption
import PixelBlocks.Proofs.Flat.Corruption

/-!
# Byte methods of deep and flat blocks

Three methods treat a block as a string of bytes, whatever its pixels are, so deep and flat
blocks have them in common. They are written twice, and decide in different ways when bytes
are raw. They agree nevertheless: what they store is the same, and what they read differs in
the texts of refusals only.
-/

namespace PixelBlocks

namespace Outcome

variable {Result : Type}

/-- Outcomes with the same result, or with findings of invalid input that may differ. -/
inductive Agree : Outcome Result → Outcome Result → Prop
  | results (result : Result) : Agree (.ok result) (.ok result)
  | refusals (first second : DataFault) : Agree (.error (.invalid first)) (.error (.invalid second))

/-- An outcome that is invalid at worst agrees with itself. -/
theorem InvalidAtWorst.agree {outcome : Outcome Result} (worst : InvalidAtWorst outcome) :
    Agree outcome outcome := by
  rcases worst.cases with ⟨result, rfl⟩ | ⟨cause, rfl⟩
  · exact .results result
  · exact .refusals cause cause

/-- Agreeing outcomes have the same results. -/
theorem Agree.ok_iff {first second : Outcome Result} (agree : Agree first second)
    (result : Result) : first = .ok result ↔ second = .ok result := by
  cases agree with
  | results => rfl
  | refusals => simp

/-- Forms that agree do so when they are compared with the same length. -/
theorem Agree.exactly {first second : Outcome Bytes} (agree : Agree first second)
    (stored : Bytes) (expected : Nat) (firstCause secondCause : DataFault) :
    Agree (exactly stored expected first firstCause)
      (exactly stored expected second secondCause) := by
  unfold Outcome.exactly
  split
  · exact .results stored
  · cases agree with
    | refusals one other => exact .refusals one other
    | results raw =>
      rw [ok_bind, ok_bind]
      split
      · exact .results raw
      · exact .refusals firstCause secondCause

end Outcome

open Outcome

/-- A deep and a flat instance with the same byte method and the same level. -/
structure SameBytes (deep : DeepCompressor) (flat : FlatCompressor) : Prop where
  listed : deep.method ∈ [Method.uncompressed, .runLength, .zipLine]
  method : flat.method = deep.method
  zipLevel : flat.zipLevel = deep.zipLevel

namespace SameBytes

variable {deep : DeepCompressor} {flat : FlatCompressor} (same : SameBytes deep flat)
  {coders : Coders} {bounds : Rectangle}
include same

/-- The method is one of three. -/
theorem method_cases :
    deep.method = .uncompressed ∨ deep.method = .runLength ∨ deep.method = .zipLine := by
  simpa using same.listed

/-- The method is implemented for flat blocks. -/
theorem isImplemented : flat.method.isImplemented = true := by
  rw [same.method]
  rcases same.method_cases with method | method | method <;> rw [method] <;> rfl

/-- Both store the same bytes. -/
theorem storeBytes_eq {raw : Bytes} (sized : flat.channels.byteSize bounds = .ok raw.length) :
    (deep.storeBytes coders raw).1 = (flat.compressSection coders raw bounds).1 := by
  have accepted : flat.checkLength raw bounds = .ok () := by
    rw [FlatCompressor.checkLength, sized, ok_bind, if_pos rfl]
  have level := same.zipLevel
  unfold FlatCompressor.compressSection FlatCompressor.encodedForm FlatCompressor.prepared
  unfold DeepCompressor.storeBytes DeepCompressor.packBytes DeepCompressor.prepared
  rw [accepted]
  rcases same.method_cases with method | method | method
  · simp only [same.method, method]
  · simp only [same.method, method]
  · simp only [same.method, method, level]

/-- Stored bytes are forms of the same bytes for both, or of none. -/
theorem agree_formOf (stored : Bytes) (expected : Nat) :
    Agree (DeepCompressor.formOf coders deep.method stored expected)
      (flat.decodedForm coders stored bounds expected) := by
  unfold DeepCompressor.formOf FlatCompressor.decodedForm
  rw [same.method]
  rcases same.method_cases with method | method | method
  · rw [method]
    exact .refusals _ _
  · rw [method]
    exact (RunLength.invalidAtWorst_decompress expected stored).agree
  · rw [method]
    exact (FlatCompressor.invalidAtWorst_decodeZip coders stored expected).agree

/-- Both read stored bytes as the same bytes, or find them invalid. -/
theorem agree_unpackBytes {expected : Nat}
    (sized : flat.channels.byteSize bounds = .ok expected) (stored : Bytes) :
    Agree (DeepCompressor.unpackBytes coders deep.method stored expected)
      (flat.uncompressSection coders stored bounds).1 := by
  have found : (flat.uncompressSection coders stored bounds).1 =
      flat.rawForm coders stored bounds expected := by
    unfold FlatCompressor.uncompressSection
    rw [sized]
    dsimp only
    cases flat.rawForm coders stored bounds expected <;> rfl
  rw [found, DeepCompressor.unpackBytes_eq, FlatCompressor.rawForm_eq same.isImplemented]
  exact (same.agree_formOf stored expected).exactly _ _ _ _

end SameBytes

/-- Instances of deep and flat blocks with the same byte method and level store the same bytes
for a block of the size of its rectangle. They read any other bytes of this rectangle alike:
both as the same block, or both find them invalid. If the level is one of zlib, both give
the block back that either of them stored. -/
theorem byteMethods_agree {deep : DeepCompressor} {flat : FlatCompressor}
    (same : SameBytes deep flat) (coders : Coders) (bounds : Rectangle) :
    (∀ raw, flat.channels.byteSize bounds = .ok raw.length →
      (deep.storeBytes coders raw).1 = (flat.compressSection coders raw bounds).1) ∧
    (∀ stored expected, flat.channels.byteSize bounds = .ok expected →
      Agree (DeepCompressor.unpackBytes coders deep.method stored expected)
        (flat.uncompressSection coders stored bounds).1) ∧
    (coders.ZlibLaws → deep.zipLevel ≤ 9 →
      ∀ raw, flat.channels.byteSize bounds = .ok raw.length →
        ∃ stored, (deep.storeBytes coders raw).1 = .ok stored ∧
          (flat.compressSection coders raw bounds).1 = .ok stored ∧
          DeepCompressor.unpackBytes coders deep.method stored raw.length = .ok raw ∧
          (flat.uncompressSection coders stored bounds).1 = .ok raw) := by
  refine ⟨fun raw => same.storeBytes_eq, fun stored expected sized =>
    same.agree_unpackBytes sized stored, fun zlib acceptable raw sized => ?_⟩
  have implemented : DeepCompressor.implements deep.method = true := by
    rcases same.method_cases with method | method | method <;> rw [method] <;> rfl
  have plain : deep.method ≠ .zstd := by
    rcases same.method_cases with method | method | method <;> rw [method] <;> decide
  have unpacked :=
    DeepCompressor.unpackBytes_packBytes zlib acceptable implemented plain raw
  exact ⟨_, rfl, (same.storeBytes_eq sized).symm, unpacked,
    ((same.agree_unpackBytes sized _).ok_iff raw).mp unpacked⟩

/-- The bytes of a tile are stored in the same way as those of a deep buffer with run lengths,
and four other bytes are read alike. What was stored comes back. -/
theorem byteMethods_agree_tile :
    let deep := { DeepCompressor.deepWriter with method := .runLength }
    let flat := { FlatCompressor.tileWriter with method := .runLength }
    let coders := FlatCompressor.tileRecording.coders
    let bounds : Rectangle := ⟨⟨-2, -1⟩, ⟨4, 4⟩⟩
    let raw := FlatCompressor.tileBytes
    (deep.storeBytes coders raw).1 = (flat.compressSection coders raw bounds).1 ∧
      Agree (DeepCompressor.unpackBytes coders deep.method [0, 1, 2, 3] raw.length)
        (flat.uncompressSection coders [0, 1, 2, 3] bounds).1 ∧
      ∃ stored, (deep.storeBytes coders raw).1 = .ok stored ∧
        (flat.compressSection coders raw bounds).1 = .ok stored ∧
        DeepCompressor.unpackBytes coders deep.method stored raw.length = .ok raw ∧
        (flat.uncompressSection coders stored bounds).1 = .ok raw := by
  intro deep flat coders bounds raw
  have same : SameBytes deep flat := ⟨by decide, rfl, rfl⟩
  have sized : FlatCompressor.tiledLayer.channels.byteSize ⟨⟨-2, -1⟩, ⟨4, 4⟩⟩ =
    .ok FlatCompressor.tileBytes.length := rfl
  obtain ⟨stores, reads, exchanges⟩ := byteMethods_agree same coders bounds
  have zlib := FlatCompressor.tileRecording.lawful.toZlibLaws
  exact ⟨stores raw sized, reads [0, 1, 2, 3] raw.length sized,
    exchanges zlib (by decide) raw sized⟩

end PixelBlocks

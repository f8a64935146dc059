import PixelBlocks.Proofs.Chunk.RoundTrip
import PixelBlocks.Proofs.Single

/-!
# The error of truncation

Truncation clears seven bits of the fraction of normal numbers, so a number comes at most 127
spacings closer to zero, and its sign and exponent stay. Bytes are truncated number by number:
no number depends on its neighbours, and the bytes behind the last number are left alone. A
chunk that truncates decodes to the truncated bytes, so its error is that of truncation.
-/

namespace PixelBlocks.Truncation

/-- The number after truncation. -/
def truncated (number : Single) : Single := ⟨truncateBits number.bits⟩

section Number

variable {number : Single}

/-- Normal numbers are those that are truncated. -/
theorem isNormal_eq (number : Single) : isNormal number.bits = number.isNormal := by
  have field : (number.bits &&& 0x7f800000).toNat = number.exponentField * 2 ^ 23 := by
    rw [Rounding.toNat_exponent, Single.exponentField_eq, Single.magnitudeBits]
    omega
  have zeroes : number.bits &&& 0x7f800000 = 0 ↔ number.exponentField = 0 := by
    rw [← UInt32.toNat_inj, field, UInt32.toNat_zero]
    omega
  have ones : number.bits &&& 0x7f800000 = 0x7f800000 ↔ number.exponentField = 255 := by
    have all : (0x7f800000 : UInt32).toNat = 255 * 2 ^ 23 := rfl
    rw [← UInt32.toNat_inj, field, all]
    omega
  rw [isNormal, Single.isNormal, Single.isFinite, Bool.eq_iff_iff]
  simp only [Bool.and_eq_true, bne_iff_ne, ne_eq, zeroes, ones]
  exact And.comm

/-- All other numbers are kept. -/
theorem truncated_of_not_normal (special : number.isNormal = false) :
    truncated number = number := by
  rw [truncated, truncateBits, isNormal_eq, special]
  rfl

/-- Of a normal number the seven lowest bits are cleared. -/
theorem toNat_truncated (normal : number.isNormal = true) :
    (truncated number).bits.toNat = number.bits.toNat / 128 * 128 := by
  have digits := Rounding.toNat_and_mask number.bits 0xffffff80 25 7 (by decide)
  have word := number.bits.toNat_lt
  rw [truncated, truncateBits, isNormal_eq, normal, if_pos rfl, digits]
  omega

/-- Clearing low bits leaves the sign alone. -/
theorem negative_truncated (number : Single) : (truncated number).negative = number.negative := by
  cases normal : number.isNormal with
  | false => rw [truncated_of_not_normal normal]
  | true =>
    rw [Bool.eq_iff_iff, Single.negative_iff, Single.negative_iff, toNat_truncated normal]
    omega

/-- Of the magnitude bits of a normal number the lowest seven are cleared. -/
theorem magnitudeBits_truncated (normal : number.isNormal = true) :
    (truncated number).magnitudeBits = number.magnitudeBits / 128 * 128 := by
  rw [Single.magnitudeBits, Single.magnitudeBits, toNat_truncated normal]
  omega

/-- A normal number changes by less than a 2¹⁶th of itself. -/
theorem abs_value_sub_truncated_lt (normal : number.isNormal = true) :
    |number.value - (truncated number).value| < 2 ^ (-16 : Int) * |number.value| := by
  have cleared := magnitudeBits_truncated normal
  have near : (truncated number).magnitudeBits = 2 ^ 23 * (number.magnitudeBits / 2 ^ 23) +
      number.magnitudeBits % 2 ^ 23 / 128 * 128 := by
    rw [cleared]
    omega
  have error := @Single.abs_value_sub_le number (truncated number) _ 127
    (negative_truncated number) (by omega) near (by omega) (by omega)
  exact lt_of_le_of_lt error (Single.steps_mul_spacing_lt normal (by omega))

/-- Larger magnitude bits of normal numbers are not smaller when their precision is cut. -/
theorem magnitudeBits_truncated_le (number other : Single) (normal : number.isNormal = true)
    (normalOther : other.isNormal = true)
    (ordered : number.magnitudeBits ≤ other.magnitudeBits) :
    (truncated number).magnitudeBits ≤ (truncated other).magnitudeBits := by
  rw [magnitudeBits_truncated normal, magnitudeBits_truncated normalOther]
  exact Nat.mul_le_mul_right 128 (Nat.div_le_div_right ordered)

/-- What a number may become when its precision is cut. -/
structure Bounded (number result : Single) : Prop where
  /-- Zeroes, subnormal numbers, infinities and NaNs keep all bits. -/
  kept : number.exponentField = 0 ∨ number.isFinite = false → result = number
  /-- The sign is kept. -/
  sign : result.negative = number.negative
  /-- The exponent is kept. -/
  exponent : result.exponentField = number.exponentField
  /-- The sixteen leading bits of the fraction are kept. -/
  leading : result.fraction / 2 ^ 7 = number.fraction / 2 ^ 7
  /-- No number moves away from zero. -/
  shrinks : |result.value| ≤ |number.value|
  /-- A normal number changes by less than a 2¹⁶th of itself. -/
  error : number.isNormal = true →
    |number.value - result.value| < 2 ^ (-16 : Int) * |number.value|

/-- Truncation stays within these bounds. -/
theorem bounded_truncated (number : Single) : Bounded number (truncated number) := by
  cases normal : number.isNormal with
  | false =>
    rw [truncated_of_not_normal normal]
    have vacuous : ¬ number.isNormal = true := by simp [normal]
    exact ⟨fun _ => rfl, rfl, rfl, rfl, le_rfl, fun holds => absurd holds vacuous⟩
  | true =>
    have cleared := magnitudeBits_truncated normal
    obtain ⟨finite, implicit⟩ := Bool.and_eq_true_iff.mp normal
    exact {
      kept := fun special => by
        rcases special with none | special
        · exact absurd none (bne_iff_ne.mp implicit)
        · rw [finite] at special
          cases special
      sign := negative_truncated number
      exponent := by
        rw [Single.exponentField_eq, Single.exponentField_eq, cleared]
        omega
      leading := by
        rw [Single.fraction_eq, Single.fraction_eq, cleared]
        omega
      shrinks := by
        rw [Single.abs_value, Single.abs_value, cleared]
        exact Single.sizeOf_strictMono.monotone (Nat.div_mul_le_self _ _)
      error := fun _ => abs_value_sub_truncated_lt normal }

end Number

section Numbers

/-- The number at an index of a byte string. -/
def numberAt (bytes : Bytes) (index : Nat) : Single :=
  ⟨Scalar.single.decode ((bytes.drop (4 * index)).take 4)⟩

/-- The first number is spelled by the bytes in front. -/
theorem numberAt_zero (bits : UInt32) (rest : Bytes) :
    numberAt (Scalar.single.encode bits ++ rest) 0 = ⟨bits⟩ := by
  have front : (Scalar.single.encode bits ++ rest).take 4 = Scalar.single.encode bits :=
    List.take_left' (Scalar.single.length_encode bits)
  rw [numberAt, Nat.mul_zero, List.drop_zero, front]
  exact congrArg Single.mk (Scalar.decode_encode .single bits)

/-- The other numbers are those of the rest. -/
theorem numberAt_succ {front : Bytes} (four : front.length = 4) (rest : Bytes) (index : Nat) :
    numberAt (front ++ rest) (index + 1) = numberAt rest index := by
  have behind : (front ++ rest).drop (4 * (index + 1)) = rest.drop (4 * index) := by
    rw [Nat.mul_succ, Nat.add_comm, ← List.drop_drop, List.drop_left' four]
  rw [numberAt, behind, numberAt]

/-- Each number is truncated on its own. -/
theorem numberAt_truncate (bytes : Bytes) :
    ∀ index < bytes.length / 4,
      numberAt (truncate bytes) index = truncated (numberAt bytes index) := by
  fun_induction truncate bytes with
  | case1 first second third fourth rest bits inductionHypothesis =>
    intro index inside
    have four : (Scalar.single.encode (truncateBits bits)).length = 4 :=
      Scalar.single.length_encode _
    cases index with
    | zero =>
      rw [numberAt_zero]
      rfl
    | succ index =>
      have later : index < rest.length / 4 := by
        simp only [List.length_cons] at inside
        omega
      rw [numberAt_succ four, inductionHypothesis index later]
      rfl
  | case2 short tooShort =>
    intro index inside
    have few : short.length < 4 := by
      rcases short with _ | ⟨first, _ | ⟨second, _ | ⟨third, _ | ⟨fourth, rest⟩⟩⟩⟩
      case cons.cons.cons.cons => exact (tooShort first second third fourth rest rfl).elim
      all_goals simp
    omega

/-- Bytes that do not fill a number are left alone. -/
theorem drop_truncate (bytes : Bytes) :
    (truncate bytes).drop (4 * (bytes.length / 4)) = bytes.drop (4 * (bytes.length / 4)) := by
  fun_induction truncate bytes with
  | case1 first second third fourth rest bits inductionHypothesis =>
    have four : (Scalar.single.encode (truncateBits bits)).length = 4 :=
      Scalar.single.length_encode _
    have whole : 4 * ((first :: second :: third :: fourth :: rest).length / 4) =
        4 + 4 * (rest.length / 4) := by
      simp only [List.length_cons]
      omega
    rw [whole, ← List.drop_drop, ← List.drop_drop, List.drop_left' four, inductionHypothesis]
    rfl
  | case2 short tooShort => rfl

/-- What bytes may become when the precision of their numbers is cut. -/
structure Truncates (bytes result : Bytes) : Prop where
  /-- No byte is lost. -/
  length : result.length = bytes.length
  /-- Each number becomes what it becomes on its own. -/
  alone : ∀ index < bytes.length / 4, numberAt result index = truncated (numberAt bytes index)
  /-- All numbers stay within their bounds. -/
  bounded : ∀ index < bytes.length / 4, Bounded (numberAt bytes index) (numberAt result index)
  /-- Normal numbers of one sign stay in order. -/
  ordered : ∀ index < bytes.length / 4, ∀ other < bytes.length / 4,
    (numberAt bytes index).isNormal = true → (numberAt bytes other).isNormal = true →
    (numberAt bytes index).negative = (numberAt bytes other).negative →
    (numberAt bytes index).value ≤ (numberAt bytes other).value →
    (numberAt result index).value ≤ (numberAt result other).value
  /-- The bytes behind the last number are kept. -/
  rest : result.drop (4 * (bytes.length / 4)) = bytes.drop (4 * (bytes.length / 4))

/-- Truncation is a cut of precision. -/
theorem truncates_truncate (bytes : Bytes) : Truncates bytes (truncate bytes) where
  length := length_truncate bytes
  alone := numberAt_truncate bytes
  bounded index inside := by
    rw [numberAt_truncate bytes index inside]
    exact bounded_truncated _
  ordered index inside other insideOther normal normalOther sign ordered := by
    rw [numberAt_truncate bytes index inside, numberAt_truncate bytes other insideOther]
    exact Single.value_change_le negative_truncated magnitudeBits_truncated_le normal normalOther
      sign ordered
  rest := drop_truncate bytes

end Numbers

/-- Truncation has a bounded error in each number and touches nothing else, and to repeat it
changes nothing. A chunk that truncates decodes to bytes with the same bounds. -/
theorem truncate_error_bounded (bytes : Bytes) :
    Truncates bytes (truncate bytes) ∧ truncate (truncate bytes) = truncate bytes ∧
      ∀ (coders : Coders) (parameters : ChunkParameters) (chunk : Bytes), coders.FrameLaws →
        parameters.preprocessing = .truncate → bytes.length < Size.bound →
        Chunk.encode coders parameters bytes = .ok chunk →
          ∃ restored, Chunk.decode coders chunk bytes.length = .ok restored ∧
            Truncates bytes restored := by
  refine ⟨truncates_truncate bytes, truncate_truncate bytes, ?_⟩
  intro coders parameters chunk frames truncating word encoded
  have plain : parameters.preprocessing = .dictionary → coders.DictionaryLaws := by
    rw [truncating]
    nofun
  obtain ⟨dictionary, payload, written⟩ := Chunk.exists_written frames plain encoded
  have decoded := written.decode_eq word
  rw [truncating] at decoded
  exact ⟨truncate bytes, decoded, truncates_truncate bytes⟩

/-- Two floats and three more bytes have a chunk, and so it decodes to such bytes. -/
theorem truncate_error_bounded_uneven :
    ∃ chunk, Chunk.encode Chunk.unevenRecording.coders ⟨4, 9, .truncate⟩ Chunk.unevenBytes =
        .ok chunk ∧
      ∃ restored, Chunk.decode Chunk.unevenRecording.coders chunk 11 = .ok restored ∧
        Truncates Chunk.unevenBytes restored := by
  have laws := Chunk.unevenRecording.lawful
  obtain ⟨chunk, encoded⟩ := @Chunk.exists_encode Chunk.unevenRecording.coders ⟨4, 9, .truncate⟩
    Chunk.unevenBytes laws.toFrameBounds (fun _ => laws.toDictionaryLaws) rfl (by decide)
  have bounded := (truncate_error_bounded Chunk.unevenBytes).2.2
  exact ⟨chunk, encoded, bounded _ _ chunk laws.toFrameLaws rfl (by decide) encoded⟩

end PixelBlocks.Truncation

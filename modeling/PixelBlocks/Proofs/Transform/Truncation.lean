import PixelBlocks.Transform.Truncation

/-!
# Truncation settles at once

Truncation does not touch the exponent. So a float stays normal, and truncating
once more clears bits that are clear already.
-/

namespace PixelBlocks.Truncation

/-- Clearing low fraction bits does not change whether a float is normal. -/
theorem isNormal_and_mask (bits : UInt32) : isNormal (bits &&& 0xffffff80) = isNormal bits := by
  have exponent : bits &&& 0xffffff80 &&& 0x7f800000 = bits &&& 0x7f800000 := by
    rw [UInt32.and_assoc]
    rfl
  simp only [isNormal, exponent]

/-- A truncated float is left alone. -/
theorem truncateBits_truncateBits (bits : UInt32) :
    truncateBits (truncateBits bits) = truncateBits bits := by
  by_cases normal : isNormal bits = true
  · have cleared : truncateBits bits = bits &&& 0xffffff80 := if_pos normal
    have again : isNormal (bits &&& 0xffffff80) = true := (isNormal_and_mask bits).trans normal
    rw [cleared, truncateBits, if_pos again, UInt32.and_assoc, UInt32.and_self]
  · have kept : truncateBits bits = bits := if_neg normal
    rw [kept, kept]

/-- The bytes of a float are truncated together. -/
theorem truncate_encode_append (bits : UInt32) (rest : Bytes) :
    truncate (Scalar.single.encode bits ++ rest) =
      Scalar.single.encode (truncateBits bits) ++ truncate rest := by
  have whole := Scalar.decode_encode .single bits
  obtain ⟨first, second, third, fourth, spelled⟩ :
      ∃ first second third fourth, Scalar.single.encode bits = [first, second, third, fourth] :=
    ⟨_, _, _, _, rfl⟩
  rw [spelled] at whole ⊢
  simp only [List.cons_append, List.nil_append, truncate, whole]

/-- Truncation keeps the number of bytes. -/
@[simp] theorem length_truncate (bytes : Bytes) : (truncate bytes).length = bytes.length := by
  fun_induction truncate bytes with
  | case1 first second third fourth rest bits inductionHypothesis =>
    simp [inductionHypothesis, Scalar.width]
    omega
  | case2 short tooShort => rfl

/-- Truncated bytes are left alone. -/
@[simp] theorem truncate_truncate (bytes : Bytes) : truncate (truncate bytes) = truncate bytes := by
  fun_induction truncate bytes with
  | case1 first second third fourth rest bits inductionHypothesis =>
    rw [truncate_encode_append, truncateBits_truncateBits, inductionHypothesis]
  | case2 short tooShort => rw [truncate.eq_2 short tooShort]

end PixelBlocks.Truncation

import PixelBlocks.Proofs.Single
import PixelBlocks.Proofs.Transform.Rounding

/-!
# The error of rounding

Rounding takes the magnitude bits to the nearest multiple of 256, the larger of two equally
near ones. Close to the infinities, where the nearest multiple may be an infinity, the low byte
is cut instead. Both are changes of the fraction by at most a few steps, carried into the
exponent where the fraction overflows, and the numbers of an exponent are evenly spaced. So a
bound on the steps is a bound on the error: relative to normal numbers, and absolute where
there is no implicit bit.
-/

namespace PixelBlocks.Rounding

section Magnitude

variable {value other : Nat}

/-- Out of reach of the infinities, half a multiple is added before the low byte is cut. -/
theorem magnitude_of_small (small : value < 0x7f7fff80) :
    magnitude value = (value + 128) / 256 := by
  have finite : value < 0x7f800000 := by omega
  have below : ¬ 0x7f8000 ≤ (value + value / 128 % 2 * 128) / 256 := by omega
  rw [magnitude, if_pos finite, if_neg below]
  omega

/-- The largest finite magnitudes are cut. -/
theorem magnitude_of_large (large : 0x7f7fff80 ≤ value) (finite : value < 0x7f800000) :
    magnitude value = value / 256 := by
  have reaches : 0x7f8000 ≤ (value + value / 128 % 2 * 128) / 256 := by omega
  rw [magnitude, if_pos finite, if_pos reaches]

/-- Infinities are left alone. -/
theorem magnitude_infinity : magnitude 0x7f800000 = 0x7f8000 := rfl

/-- No multiple of 256 is nearer, and an equally near one is not larger. -/
theorem magnitude_nearest (small : value < 0x7f7fff80) (multiple : Int) :
    ((value : Int) - magnitude value * 256).natAbs ≤ (value - multiple * 256).natAbs ∧
      (((value : Int) - magnitude value * 256).natAbs = (value - multiple * 256).natAbs →
        multiple ≤ magnitude value) := by
  rw [magnitude_of_small small]
  omega

/-- What is finite stays finite, and nothing else becomes finite. -/
theorem magnitude_finite_iff : magnitude value * 256 < 0x7f800000 ↔ value < 0x7f800000 := by
  unfold magnitude
  split
  · split <;> omega
  · split <;> omega

/-- A payload stays a payload, and infinities do not get one. -/
theorem magnitude_nan_iff : 0x7f800000 < magnitude value * 256 ↔ 0x7f800000 < value := by
  unfold magnitude
  split
  · split <;> omega
  · split <;> omega

/-- Larger finite magnitudes have larger rounded magnitudes, or equal ones. -/
theorem magnitude_mono (ordered : value ≤ other) (finite : other < 0x7f800000) :
    magnitude value ≤ magnitude other := by
  by_cases small : other < 0x7f7fff80
  · rw [magnitude_of_small small, magnitude_of_small (by omega)]
    omega
  · rw [magnitude_of_large (by omega) finite]
    by_cases smaller : value < 0x7f7fff80
    · rw [magnitude_of_small smaller]
      omega
    · rw [magnitude_of_large (by omega) (by omega)]
      exact Nat.div_le_div_right ordered

/-- Rounding moves the fraction by few steps, also where it carries into the exponent: by
fewer than a 2¹⁶th of the significand has, and by at most 128 out of reach of the
infinities. -/
theorem exists_steps (finite : value < 0x7f800000) :
    ∃ fraction steps, fraction ≤ 2 ^ 23 ∧
      magnitude value * 256 = 2 ^ 23 * (value / 2 ^ 23) + fraction ∧
      fraction ≤ value % 2 ^ 23 + steps ∧ value % 2 ^ 23 ≤ fraction + steps ∧
      steps * 2 ^ 16 < 2 ^ 23 + value % 2 ^ 23 ∧ (value < 0x7f7fff80 → steps ≤ 128) := by
  by_cases small : value < 0x7f7fff80
  · rw [magnitude_of_small small]
    -- Half a multiple is only added to a fraction that has this much, so even 128 steps are
    -- fewer than a 2¹⁶th of the significand.
    by_cases upwards : 128 ≤ value % 256
    · exact ⟨value % 2 ^ 23 - value % 256 + 256, 256 - value % 256, by omega⟩
    · exact ⟨value % 2 ^ 23 - value % 256, value % 256, by omega⟩
  · rw [magnitude_of_large (by omega) finite]
    exact ⟨value % 2 ^ 23 - value % 256, value % 256, by omega⟩

end Magnitude

/-- The number that is read back for a rounded number. -/
def rounded (number : Single) : Single := ⟨from24 (to24 number.bits)⟩

section Rounded

variable (number : Single)

/-- The bits that are read back are the sign and the rounded magnitude. -/
theorem toNat_rounded : (rounded number).bits.toNat =
    2 ^ 31 * (number.bits.toNat / 2 ^ 31) + magnitude number.magnitudeBits * 256 := by
  have fits := toNat_to24_lt number.bits
  have parts := toNat_to24 number.bits
  rw [rounded, toNat_from24, Nat.mod_eq_of_lt (by omega), parts, Single.magnitudeBits]
  omega

/-- The magnitude bits are rounded. -/
theorem magnitudeBits_rounded :
    (rounded number).magnitudeBits = magnitude number.magnitudeBits * 256 := by
  have below := magnitude_lt number.magnitudeBits number.magnitudeBits_lt
  rw [Single.magnitudeBits, toNat_rounded]
  omega

/-- The sign is kept. -/
theorem negative_rounded : (rounded number).negative = number.negative := by
  have below := magnitude_lt number.magnitudeBits number.magnitudeBits_lt
  rw [Bool.eq_iff_iff, Single.negative_iff, Single.negative_iff, toNat_rounded]
  omega

end Rounded

section Error

variable {number other : Single}

/-- What is read back for a finite number is within the steps of its rounding. -/
theorem exists_error_steps (finite : number.isFinite = true) :
    ∃ steps : Nat, |number.value - (rounded number).value| ≤
        steps * Single.spacing (number.magnitudeBits / 2 ^ 23) ∧
      steps * 2 ^ 16 < 2 ^ 23 + number.magnitudeBits % 2 ^ 23 ∧
      (number.magnitudeBits < 0x7f7fff80 → steps ≤ 128) := by
  obtain ⟨fraction, steps, within, near, above, below, few, atMost⟩ :=
    exists_steps (number.isFinite_iff.mp finite)
  have error := Single.abs_value_sub_le (negative_rounded number) within
    ((magnitudeBits_rounded number).trans near) above below
  exact ⟨steps, error, few, atMost⟩

/-- A normal number changes by less than a 2¹⁶th of itself. -/
theorem abs_value_sub_rounded_lt (normal : number.isNormal = true) :
    |number.value - (rounded number).value| < 2 ^ (-16 : Int) * |number.value| := by
  have finite : number.isFinite = true := (Bool.and_eq_true_iff.mp normal).1
  obtain ⟨steps, error, few, -⟩ := exists_error_steps finite
  exact lt_of_le_of_lt error (Single.steps_mul_spacing_lt normal few)

/-- A number without an implicit bit changes by at most 128 times the smallest number. -/
theorem abs_value_sub_rounded_le (subnormal : number.exponentField = 0) :
    |number.value - (rounded number).value| ≤ 2 ^ 7 * 2 ^ (-149 : Int) := by
  have small : number.magnitudeBits < 2 ^ 23 := by
    rw [Single.exponentField_eq] at subnormal
    omega
  obtain ⟨steps, error, -, atMost⟩ :=
    exists_error_steps (number.isFinite_iff.mpr (by omega))
  have few : (steps : ℚ) ≤ 2 ^ 7 := by exact_mod_cast atMost (by omega)
  rw [Single.spacing_subnormal subnormal] at error
  exact error.trans (mul_le_mul_of_nonneg_right few (by positivity))

/-- Larger finite magnitude bits are not smaller when they are rounded. -/
theorem magnitudeBits_rounded_le (finite : other.isFinite = true)
    (ordered : number.magnitudeBits ≤ other.magnitudeBits) :
    (rounded number).magnitudeBits ≤ (rounded other).magnitudeBits := by
  rw [magnitudeBits_rounded, magnitudeBits_rounded]
  exact Nat.mul_le_mul_right 256 (magnitude_mono ordered (other.isFinite_iff.mp finite))

end Error

/-- What the leading 24 bits for a number have to be. The lower 23 of them, a 256th of the
magnitude bits that are read back, are compared with the magnitude bits of the number. -/
structure RoundsTo (number : Single) (leading : UInt32) : Prop where
  /-- They are 24 bits. -/
  fits : leading.toNat < 2 ^ 24
  /-- The highest of them is the sign. -/
  sign : leading.toNat / 2 ^ 23 = number.bits.toNat / 2 ^ 31
  /-- Finite numbers, and only those, are read back as finite. -/
  finite : (Single.mk (from24 leading)).isFinite = number.isFinite
  /-- NaNs, and only those, are read back as NaN. -/
  nan : (Single.mk (from24 leading)).isNaN = number.isNaN
  /-- An infinity is read back as itself. -/
  infinite : number.magnitudeBits = 0x7f800000 → from24 leading = number.bits
  /-- The nearest multiple of 256, or the larger of two. -/
  nearest : number.magnitudeBits < 0x7f7fff80 → ∀ multiple : Int,
    ((number.magnitudeBits : Int) - (leading.toNat % 2 ^ 23 : Nat) * 256).natAbs ≤
        (number.magnitudeBits - multiple * 256).natAbs ∧
      (((number.magnitudeBits : Int) - (leading.toNat % 2 ^ 23 : Nat) * 256).natAbs =
          (number.magnitudeBits - multiple * 256).natAbs →
        multiple ≤ (leading.toNat % 2 ^ 23 : Nat))
  /-- Near the infinities, the multiple of 256 below. -/
  cut : 0x7f7fff80 ≤ number.magnitudeBits → number.isFinite = true →
    leading.toNat % 2 ^ 23 * 256 = number.magnitudeBits - number.magnitudeBits % 256
  /-- A normal number is read back up to a relative error. -/
  relative : number.isNormal = true →
    |number.value - (Single.mk (from24 leading)).value| < 2 ^ (-16 : Int) * |number.value|
  /-- Without an implicit bit the error is at most half of the distance between the numbers
  that are left. -/
  absolute : number.exponentField = 0 →
    |number.value - (Single.mk (from24 leading)).value| ≤ 2 ^ 7 * 2 ^ (-149 : Int)

/-- Rounding is correct for all bits there are. It keeps sign, class and order of numbers, takes
the nearest of the floats of 24 bits unless this one might be an infinity, keeps the error
small in both cases, and settles at once. -/
theorem to24_rounds_to_nearest (number : Single) :
    RoundsTo number (to24 number.bits) ∧
      (∀ other : Single, number.isFinite = true → other.isFinite = true →
        number.negative = other.negative → number.value ≤ other.value →
          (rounded number).value ≤ (rounded other).value) ∧
      to24 (from24 (to24 number.bits)) = to24 number.bits := by
  have parts : (to24 number.bits).toNat =
      2 ^ 23 * (number.bits.toNat / 2 ^ 31) + magnitude number.magnitudeBits :=
    toNat_to24 number.bits
  have below := magnitude_lt number.magnitudeBits number.magnitudeBits_lt
  have lower : (to24 number.bits).toNat % 2 ^ 23 = magnitude number.magnitudeBits := by omega
  refine ⟨?_, fun other => Single.value_change_le negative_rounded
    fun _ _ _ => magnitudeBits_rounded_le, to24_from24_to24 number.bits⟩
  exact {
    fits := toNat_to24_lt number.bits
    sign := by omega
    finite := by
      rw [Bool.eq_iff_iff, Single.isFinite_iff, number.isFinite_iff]
      exact (magnitudeBits_rounded number).symm ▸ magnitude_finite_iff
    nan := by
      rw [Bool.eq_iff_iff, Single.isNaN_iff, number.isNaN_iff]
      exact (magnitudeBits_rounded number).symm ▸ magnitude_nan_iff
    infinite := by
      intro infinite
      have kept : (from24 (to24 number.bits)).toNat = _ := toNat_rounded number
      rw [infinite, magnitude_infinity] at kept
      rw [Single.magnitudeBits] at infinite
      exact UInt32.toNat_inj.mp (by omega)
    nearest := by
      intro small multiple
      rw [lower]
      exact magnitude_nearest small multiple
    cut := by
      intro large finite
      rw [lower, magnitude_of_large large (number.isFinite_iff.mp finite)]
      omega
    relative := abs_value_sub_rounded_lt
    absolute := abs_value_sub_rounded_le }

end PixelBlocks.Rounding

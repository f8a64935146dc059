import Mathlib.Algebra.Group.Nat.Defs
import PixelBlocks.Transform.Rounding

/-!
# Rounding as arithmetic

A float of 32 bits is a sign and a magnitude, and rounding treats the magnitude as
a number: it takes the nearest multiple of 256, the larger of two equally near ones,
and leaves the low byte out. Infinities stay what they are, the payload of a NaN is
cut but never to nothing, and a finite magnitude that would reach infinity is cut
instead. From this it follows that rounding twice is rounding once.
-/

namespace PixelBlocks.Rounding

/-- The magnitude of a rounded float, given the magnitude of the float. -/
def magnitude (value : Nat) : Nat :=
  if value < 0x7f800000 then
    if 0x7f8000 ≤ (value + value / 128 % 2 * 128) / 256 then value / 256
    else (value + value / 128 % 2 * 128) / 256
  else if value = 0x7f800000 then 0x7f8000
  else max (value / 256) 0x7f8001

/-- A mask of consecutive ones at a place selects the digits at this place. -/
theorem toNat_and_mask (bits mask : UInt32) (width place : Nat)
    (shape : mask.toNat = (2 ^ width - 1) * 2 ^ place) :
    (bits &&& mask).toNat = bits.toNat / 2 ^ place % 2 ^ width * 2 ^ place := by
  rw [UInt32.toNat_and, shape]
  apply Nat.eq_of_testBit_eq
  intro index
  simp only [Nat.testBit_and, Nat.testBit_mul_two_pow, Nat.testBit_two_pow_sub_one,
    Nat.testBit_mod_two_pow, Nat.testBit_div_two_pow]
  by_cases inside : place ≤ index
  · simp [inside, Bool.and_comm]
  · simp [inside]

/-- The sign is the highest bit. -/
theorem toNat_sign (bits : UInt32) :
    (bits &&& 0x80000000).toNat = bits.toNat / 2 ^ 31 * 2 ^ 31 := by
  have digits := toNat_and_mask bits 0x80000000 1 31 (by decide)
  have single : bits.toNat / 2 ^ 31 < 2 ^ 1 := Nat.div_lt_of_lt_mul bits.toNat_lt
  rw [digits, Nat.mod_eq_of_lt single]

/-- The exponent is the eight bits below the sign. -/
theorem toNat_exponent (bits : UInt32) :
    (bits &&& 0x7f800000).toNat = bits.toNat / 2 ^ 23 % 256 * 2 ^ 23 :=
  toNat_and_mask bits 0x7f800000 8 23 (by decide)

/-- The fraction is the 23 lowest bits. -/
theorem toNat_fraction (bits : UInt32) : (bits &&& 0x007fffff).toNat = bits.toNat % 2 ^ 23 := by
  have digits := toNat_and_mask bits 0x007fffff 23 0 (by decide)
  omega

/-- The highest bit that is rounded away decides whether to round up. -/
theorem toNat_roundingBit (bits : UInt32) :
    ((bits &&& 0x007fffff) &&& 0x80).toNat = bits.toNat / 128 % 2 * 128 := by
  have digits := toNat_and_mask (bits &&& 0x007fffff) 0x80 1 7 (by decide)
  rw [toNat_fraction] at digits
  omega

/-- Exponent and fraction together are the magnitude, all bits but the sign. -/
theorem toNat_exponent_or_fraction (bits : UInt32) :
    ((bits &&& 0x7f800000) ||| (bits &&& 0x007fffff)).toNat = bits.toNat % 2 ^ 31 := by
  have below : bits.toNat % 2 ^ 23 < 2 ^ 23 := Nat.mod_lt _ (by decide)
  have joined := Nat.two_pow_add_eq_or_of_lt below (bits.toNat / 2 ^ 23 % 256)
  rw [UInt32.toNat_or, toNat_exponent, toNat_fraction, Nat.mul_comm, ← joined]
  omega

/-- Without the eight lowest bits a number is a 256th of itself. -/
theorem toNat_shiftRight_eight (bits : UInt32) : (bits >>> 8).toNat = bits.toNat / 256 := by
  rw [UInt32.toNat_shiftRight]
  exact Nat.shiftRight_eq_div_pow _ 8

/-- A rounded NaN keeps the leading part of its payload, or gets a payload of one. -/
theorem toNat_roundedNan (bits : UInt32) (special : bits &&& 0x7f800000 = 0x7f800000) :
    (((bits &&& 0x7f800000) >>> 8) ||| ((bits &&& 0x007fffff) >>> 8) |||
      (if (bits &&& 0x007fffff) >>> 8 = 0 then 1 else 0)).toNat =
        max (bits.toNat % 2 ^ 31 / 256) 0x7f8001 := by
  have exponent := toNat_exponent bits
  have payload : ((bits &&& 0x007fffff) >>> 8).toNat = bits.toNat % 2 ^ 23 / 256 := by
    rw [toNat_shiftRight_eight, toNat_fraction]
  have below : bits.toNat % 2 ^ 23 / 256 < 2 ^ 15 := by omega
  have ones : ((0x7f800000 : UInt32) >>> 8).toNat = 2 ^ 15 * 255 := by decide
  rw [special] at exponent ⊢
  have full : bits.toNat / 2 ^ 23 % 256 = 255 := by
    simp only [UInt32.reduceToNat] at exponent
    omega
  rw [UInt32.toNat_or, UInt32.toNat_or, payload, ones]
  by_cases none : (bits &&& 0x007fffff) >>> 8 = 0
  · have zero : bits.toNat % 2 ^ 23 / 256 = 0 := by rw [← payload, none]; rfl
    have joined : (2 ^ 15 * 255 ||| 0 ||| (1 : UInt32).toNat) = 0x7f8001 := by decide
    rw [if_pos none, zero, joined]
    omega
  · have some : bits.toNat % 2 ^ 23 / 256 ≠ 0 := by
      intro zero
      exact none (UInt32.toNat_inj.mp (payload.trans zero))
    rw [if_neg none, UInt32.toNat_zero, Nat.or_zero, ← Nat.two_pow_add_eq_or_of_lt below]
    omega

/-- A finite magnitude is rounded to the nearest multiple of 256, or cut if that is
out of range. -/
theorem toNat_roundedFinite (bits : UInt32)
    (finite : bits.toNat % 2 ^ 31 < 0x7f800000) :
    (if (0x7f8000 : UInt32) ≤ (((bits &&& 0x7f800000) ||| (bits &&& 0x007fffff)) +
          ((bits &&& 0x007fffff) &&& 0x80)) >>> 8
      then ((bits &&& 0x7f800000) ||| (bits &&& 0x007fffff)) >>> 8
      else (((bits &&& 0x7f800000) ||| (bits &&& 0x007fffff)) +
          ((bits &&& 0x007fffff) &&& 0x80)) >>> 8).toNat =
        magnitude (bits.toNat % 2 ^ 31) := by
  have bit : bits.toNat / 128 % 2 = bits.toNat % 2 ^ 31 / 128 % 2 := by omega
  have rounded : ((((bits &&& 0x7f800000) ||| (bits &&& 0x007fffff)) +
      ((bits &&& 0x007fffff) &&& 0x80)) >>> 8).toNat =
        (bits.toNat % 2 ^ 31 + bits.toNat % 2 ^ 31 / 128 % 2 * 128) / 256 := by
    rw [toNat_shiftRight_eight, UInt32.toNat_add, toNat_exponent_or_fraction, toNat_roundingBit,
      bit, Nat.mod_eq_of_lt (by omega)]
  rw [magnitude, if_pos finite]
  simp only [UInt32.le_iff_toNat_le, rounded, UInt32.reduceToNat]
  split
  · rw [toNat_shiftRight_eight, toNat_exponent_or_fraction]
  · exact rounded

/-- A rounded magnitude takes 23 bits. -/
theorem magnitude_lt (value : Nat) (small : value < 2 ^ 31) : magnitude value < 2 ^ 23 := by
  unfold magnitude
  split
  · split <;> omega
  · split <;> omega

/-- Rounding keeps the sign and rounds the magnitude. -/
theorem toNat_to24 (bits : UInt32) :
    (to24 bits).toNat = 2 ^ 23 * (bits.toNat / 2 ^ 31) + magnitude (bits.toNat % 2 ^ 31) := by
  have sign : ((bits &&& 0x80000000) >>> 8).toNat = 2 ^ 23 * (bits.toNat / 2 ^ 31) := by
    rw [toNat_shiftRight_eight, toNat_sign]
    omega
  have exponent := toNat_exponent bits
  have fraction := toNat_fraction bits
  have below := magnitude_lt (bits.toNat % 2 ^ 31) (Nat.mod_lt _ (by decide))
  rw [Nat.two_pow_add_eq_or_of_lt below, to24, UInt32.toNat_or, sign]
  congr 1
  by_cases special : bits &&& 0x7f800000 = 0x7f800000
  · have large : bits.toNat % 2 ^ 31 = 0x7f800000 + bits.toNat % 2 ^ 23 := by
      simp only [special, UInt32.reduceToNat] at exponent
      omega
    have notFinite : ¬ bits.toNat % 2 ^ 31 < 0x7f800000 := by omega
    rw [if_pos special, magnitude, if_neg notFinite]
    by_cases infinite : bits &&& 0x007fffff = 0
    · have none : bits.toNat % 2 ^ 23 = 0 := by rw [← fraction, infinite]; rfl
      have equal : bits.toNat % 2 ^ 31 = 0x7f800000 := by omega
      rw [if_pos infinite, if_pos equal, special]
      rfl
    · have some : bits.toNat % 2 ^ 23 ≠ 0 := by
        intro none
        exact infinite (UInt32.toNat_inj.mp (fraction.trans none))
      have greater : ¬ bits.toNat % 2 ^ 31 = 0x7f800000 := by omega
      rw [if_neg infinite, if_neg greater]
      exact toNat_roundedNan bits special
  · have finite : bits.toNat % 2 ^ 31 < 0x7f800000 := by
      have notFull : bits.toNat / 2 ^ 23 % 256 ≠ 255 := by
        intro full
        rw [full] at exponent
        exact special (UInt32.toNat_inj.mp exponent)
      omega
    rw [if_neg special]
    exact toNat_roundedFinite bits finite

/-- Rounded floats take 24 bits. -/
theorem toNat_to24_lt (bits : UInt32) : (to24 bits).toNat < 2 ^ 24 := by
  have below := magnitude_lt (bits.toNat % 2 ^ 31) (Nat.mod_lt _ (by decide))
  have small := bits.toNat_lt
  rw [toNat_to24]
  omega

/-- The float of 32 bits that rounding leaves, as a number. -/
theorem toNat_from24 (bits : UInt32) : (from24 bits).toNat = bits.toNat * 256 % 2 ^ 32 := by
  rw [from24, UInt32.toNat_shiftLeft]
  exact congrArg (· % 2 ^ 32) (Nat.shiftLeft_eq _ 8)

/-- A magnitude whose lowest eight bits are zero is only shifted. -/
theorem magnitude_mul (value : Nat) : magnitude (value * 256) = value := by
  have quotient : value * 256 / 256 = value := Nat.mul_div_cancel value (by decide)
  have bit : value * 256 / 128 % 2 = 0 := by omega
  unfold magnitude
  rw [bit, Nat.zero_mul, Nat.add_zero, quotient]
  split
  · exact ite_self value
  · split
    · omega
    · omega

/-- Any 24 bits, taken as the leading bits of a float, are left alone by rounding. -/
theorem to24_from24 {bits : UInt32} (small : bits.toNat < 2 ^ 24) : to24 (from24 bits) = bits := by
  apply UInt32.toNat_inj.mp
  have shifted : (from24 bits).toNat = bits.toNat * 256 := by
    rw [toNat_from24, Nat.mod_eq_of_lt (by omega)]
  have remainder : bits.toNat * 256 % 2 ^ 31 = bits.toNat % 2 ^ 23 * 256 :=
    Nat.mul_mod_mul_right 256 bits.toNat (2 ^ 23)
  have quotient : bits.toNat * 256 / 2 ^ 31 = bits.toNat / 2 ^ 23 :=
    Nat.mul_div_mul_right bits.toNat (2 ^ 23) (by decide)
  rw [toNat_to24, shifted, remainder, quotient, magnitude_mul]
  exact Nat.div_add_mod bits.toNat (2 ^ 23)

/-- Rounding a float that was rounded before changes nothing. -/
theorem to24_from24_to24 (bits : UInt32) : to24 (from24 (to24 bits)) = to24 bits :=
  to24_from24 (toNat_to24_lt bits)

end PixelBlocks.Rounding

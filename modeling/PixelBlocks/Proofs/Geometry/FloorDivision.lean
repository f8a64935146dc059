import Mathlib.Data.Int.Basic
import PixelBlocks.Geometry.FloorDivision
import PixelBlocks.Proofs.Checked

/-!
# Floor division within words

For a positive divisor quotient and remainder are the mathematical ones, and the remainder
is never negative, as long as the divisor less one and less the dividend is a signed 32-bit
number. Only then do all intermediate results fit their words; a dividend of zero or more
always leaves this room. Without room the raised dividend wraps around to a negative number,
and the quotient has the wrong sign.
-/

namespace PixelBlocks

namespace Checked

/-- The floor quotient, with every intermediate result in a signed 32-bit word. -/
def floorQuotient (dividend divisor : Int) : Checked Int :=
  if 0 ≤ dividend then
    if 0 ≤ divisor then quotient 32 dividend divisor
    else do
      let opposite ← signed 32 (-divisor)
      let result ← quotient 32 dividend opposite
      signed 32 (-result)
  else
    if 0 ≤ divisor then do
      let last ← signed 32 (divisor - 1)
      let raised ← signed 32 (last - dividend)
      let result ← quotient 32 raised divisor
      signed 32 (-result)
    else do
      let opposite ← signed 32 (-divisor)
      let last ← signed 32 (opposite - 1)
      let raised ← signed 32 (last - dividend)
      quotient 32 raised opposite

/-- What the floor quotient leaves over, with every intermediate result in a signed
32-bit word. -/
def floorRemainder (dividend divisor : Int) : Checked Int := do
  let result ← floorQuotient dividend divisor
  let product ← signed 32 (divisor * result)
  signed 32 (dividend - product)

end Checked

section Remainder

variable {dividend divisor : Int}

/-- Raising a negative dividend turns rounding down into rounding towards zero. -/
theorem neg_ediv_raised (positive : 0 < divisor) :
    -((divisor - 1 - dividend) / divisor) = dividend / divisor := by
  have whole : divisor - 1 - dividend = (divisor - 1 - dividend % divisor) +
      divisor * -(dividend / divisor) := by
    have split := Int.mul_ediv_add_emod dividend divisor
    rw [Int.mul_neg]
    omega
  have least := Int.emod_nonneg dividend (Int.ne_of_gt positive)
  have most := Int.emod_lt_of_pos dividend positive
  have small : (divisor - 1 - dividend % divisor) / divisor = 0 :=
    Int.ediv_eq_zero_of_lt (by omega) (by omega)
  rw [whole, Int.add_mul_ediv_left _ _ (Int.ne_of_gt positive), small]
  omega

namespace Checked

/-- With room for the raised dividend, all steps of a floor division by a positive word have
results. -/
theorem floorQuotient_eq_ok (least : -0x80000000 ≤ dividend) (most : dividend < 0x80000000)
    (positive : 0 < divisor) (word : divisor < 0x80000000)
    (room : divisor - 1 - dividend < 0x80000000) :
    floorQuotient dividend divisor = .ok (dividend / divisor) := by
  have defined : divisor ≠ 0 := Int.ne_of_gt positive
  have upright : 0 ≤ divisor := Int.le_of_lt positive
  by_cases nonnegative : 0 ≤ dividend
  · have low := Int.ediv_nonneg nonnegative upright
    have high := Int.ediv_le_self divisor nonnegative
    rw [floorQuotient, if_pos nonnegative, if_pos upright, quotient, if_neg defined,
      Int.tdiv_eq_ediv_of_nonneg nonnegative]
    exact signed_eq_ok (by omega) (by omega)
  · have raised : 0 ≤ divisor - 1 - dividend := by omega
    have low := Int.ediv_nonneg raised upright
    have high := Int.ediv_le_self divisor raised
    have negated : -((divisor - 1 - dividend) / divisor) = dividend / divisor :=
      neg_ediv_raised positive
    rw [floorQuotient, if_neg nonnegative, if_pos upright, signed_eq_ok (by omega) (by omega),
      Outcome.ok_bind, signed_eq_ok (by omega) (by omega), Outcome.ok_bind, quotient,
      if_neg defined, Int.tdiv_eq_ediv_of_nonneg raised, signed_eq_ok (by omega) (by omega),
      Outcome.ok_bind, negated]
    exact signed_eq_ok (by omega) (by omega)

/-- With the same room, the steps up to the remainder have results, and the remainder is the
mathematical one. -/
theorem floorRemainder_eq_ok (least : -0x80000000 ≤ dividend) (most : dividend < 0x80000000)
    (positive : 0 < divisor) (word : divisor < 0x80000000)
    (room : divisor - 1 - dividend < 0x80000000) :
    floorRemainder dividend divisor = .ok (dividend % divisor) := by
  have split := Int.mul_ediv_add_emod dividend divisor
  have low := Int.emod_nonneg dividend (Int.ne_of_gt positive)
  have high := Int.emod_lt_of_pos dividend positive
  have left : dividend - divisor * (dividend / divisor) = dividend % divisor := by omega
  rw [floorRemainder, floorQuotient_eq_ok least most positive word room, Outcome.ok_bind,
    signed_eq_ok (by omega) (by omega), Outcome.ok_bind, left]
  exact signed_eq_ok (by omega) (by omega)

/-- Without room, raising the dividend leaves its word. -/
theorem floorQuotient_eq_outOfRange (positive : 0 < divisor) (word : divisor < 0x80000000)
    (full : 0x80000000 ≤ divisor - 1 - dividend) :
    floorQuotient dividend divisor = .error .outOfRange := by
  have negative : ¬ 0 ≤ dividend := by omega
  have outside : ¬ (-2 ^ (32 - 1) ≤ divisor - 1 - dividend ∧
      divisor - 1 - dividend < 2 ^ (32 - 1)) := by omega
  rw [floorQuotient, if_neg negative, if_pos (Int.le_of_lt positive),
    signed_eq_ok (by omega) (by omega), Outcome.ok_bind, signed, if_neg outside]
  rfl

/-- Then there is no remainder either. -/
theorem floorRemainder_eq_outOfRange (positive : 0 < divisor) (word : divisor < 0x80000000)
    (full : 0x80000000 ≤ divisor - 1 - dividend) :
    floorRemainder dividend divisor = .error .outOfRange := by
  rw [floorRemainder, floorQuotient_eq_outOfRange positive word full]
  rfl

-- Two rows above zero there is no room for the largest divisor.
example : floorRemainder (-2) 0x7fffffff = .error .outOfRange := by decide

end Checked

end Remainder

section Words

variable {dividend divisor : Int32} {result : Int}

/-- A quotient that is a word is the quotient of the words. -/
theorem toInt_div_of_checked
    (checked : Checked.quotient 32 dividend.toInt divisor.toInt = .ok result) :
    (dividend / divisor).toInt = result := by
  by_cases zero : divisor.toInt = 0
  · rw [Checked.quotient, if_pos zero] at checked
    cases checked
  · rw [Checked.quotient, if_neg zero] at checked
    exact Checked.toInt_of_signed checked (Int32.toInt_div dividend divisor)

/-- Where all steps of a floor division have results, the words come to the same quotient. -/
theorem toInt_floorQuotient_of_checked
    (checked : Checked.floorQuotient dividend.toInt divisor.toInt = .ok result) :
    (floorQuotient dividend divisor).toInt = result := by
  have zero : (0 : Int32).toInt = 0 := rfl
  have one : (1 : Int32).toInt = 1 := rfl
  unfold floorQuotient
  unfold Checked.floorQuotient at checked
  simp only [Int32.le_iff_toInt_le, zero]
  by_cases nonnegative : 0 ≤ dividend.toInt
  · by_cases upright : 0 ≤ divisor.toInt
    · rw [if_pos nonnegative, if_pos upright] at checked ⊢
      exact toInt_div_of_checked checked
    · rw [if_pos nonnegative, if_neg upright] at checked ⊢
      obtain ⟨opposite, first, checked⟩ := Outcome.bind_eq_ok_iff.mp checked
      obtain ⟨divided, second, third⟩ := Outcome.bind_eq_ok_iff.mp checked
      have negated := Checked.toInt_of_signed first (Int32.toInt_neg divisor)
      rw [← negated] at second
      rw [← toInt_div_of_checked second] at third
      exact Checked.toInt_of_signed third (Int32.toInt_neg _)
  · by_cases upright : 0 ≤ divisor.toInt
    · rw [if_neg nonnegative, if_pos upright] at checked ⊢
      obtain ⟨last, first, checked⟩ := Outcome.bind_eq_ok_iff.mp checked
      obtain ⟨raised, second, checked⟩ := Outcome.bind_eq_ok_iff.mp checked
      obtain ⟨divided, third, fourth⟩ := Outcome.bind_eq_ok_iff.mp checked
      rw [← Checked.toInt_of_signed first (Int32.toInt_sub divisor 1)] at second
      rw [← Checked.toInt_of_signed second (Int32.toInt_sub (divisor - 1) dividend)] at third
      rw [← toInt_div_of_checked third] at fourth
      exact Checked.toInt_of_signed fourth (Int32.toInt_neg _)
    · rw [if_neg nonnegative, if_neg upright] at checked ⊢
      obtain ⟨opposite, first, checked⟩ := Outcome.bind_eq_ok_iff.mp checked
      obtain ⟨last, second, checked⟩ := Outcome.bind_eq_ok_iff.mp checked
      obtain ⟨raised, third, fourth⟩ := Outcome.bind_eq_ok_iff.mp checked
      have negated := Checked.toInt_of_signed first (Int32.toInt_neg divisor)
      rw [← negated] at second fourth
      rw [← Checked.toInt_of_signed second (Int32.toInt_sub (-divisor) 1)] at third
      rw [← Checked.toInt_of_signed third (Int32.toInt_sub (-divisor - 1) dividend)] at fourth
      exact toInt_div_of_checked fourth

/-- Where all steps up to the remainder have results, the words leave the same remainder. -/
theorem toInt_floorRemainder_of_checked
    (checked : Checked.floorRemainder dividend.toInt divisor.toInt = .ok result) :
    (floorRemainder dividend divisor).toInt = result := by
  obtain ⟨quotient, first, checked⟩ := Outcome.bind_eq_ok_iff.mp checked
  obtain ⟨product, second, third⟩ := Outcome.bind_eq_ok_iff.mp checked
  rw [← toInt_floorQuotient_of_checked first] at second
  rw [← Checked.toInt_of_signed second (Int32.toInt_mul _ _)] at third
  exact Checked.toInt_of_signed third (Int32.toInt_sub _ _)

/-- A remainder of words by a positive word is the mathematical one if there is room for the
raised dividend. -/
theorem toInt_floorRemainder (positive : 0 < divisor.toInt)
    (room : divisor.toInt - 1 - dividend.toInt < 0x80000000) :
    (floorRemainder dividend divisor).toInt = dividend.toInt % divisor.toInt := by
  have least := dividend.le_toInt
  have most := dividend.toInt_lt
  have word := divisor.toInt_lt
  exact toInt_floorRemainder_of_checked
    (Checked.floorRemainder_eq_ok (by omega) (by omega) positive (by omega) room)

/-- A quotient of words by a positive word is the mathematical one with the same room. -/
theorem toInt_floorQuotient (positive : 0 < divisor.toInt)
    (room : divisor.toInt - 1 - dividend.toInt < 0x80000000) :
    (floorQuotient dividend divisor).toInt = dividend.toInt / divisor.toInt := by
  have least := dividend.le_toInt
  have most := dividend.toInt_lt
  have word := divisor.toInt_lt
  exact toInt_floorQuotient_of_checked
    (Checked.floorQuotient_eq_ok (by omega) (by omega) positive (by omega) room)

end Words

section Wrapping

variable {dividend divisor : Int32}

/-- How far below zero a raised dividend is that has wrapped around. -/
def depth (dividend divisor : Int) : Int := 0x100000000 - (divisor - 1 - dividend)

variable (positive : 0 < divisor.toInt)
  (full : 0x80000000 ≤ divisor.toInt - 1 - dividend.toInt)
include positive full

/-- Without room, the quotient of words is that of the depth, which is not negative. -/
theorem toInt_floorQuotient_of_full :
    (floorQuotient dividend divisor).toInt =
      (depth dividend.toInt divisor.toInt / divisor.toInt).bmod (2 ^ 32) := by
  have least := dividend.le_toInt
  have word := divisor.toInt_lt
  have zero : (0 : Int32).toInt = 0 := rfl
  have one : (1 : Int32).toInt = 1 := rfl
  have nonnegative : 0 ≤ depth dividend.toInt divisor.toInt := by
    rw [depth]
    omega
  have most : depth dividend.toInt divisor.toInt ≤ 0x80000000 := by
    rw [depth]
    omega
  have last : (divisor - 1).toInt = divisor.toInt - 1 := by
    rw [Int32.toInt_sub, one, Int.bmod_eq_of_le (by omega) (by omega)]
  have raised : (divisor - 1 - dividend).toInt = -depth dividend.toInt divisor.toInt := by
    rw [Int32.toInt_sub, last, ← Int.sub_bmod_right, depth, Int.bmod_eq_of_le (by omega) (by omega)]
    omega
  have low := Int.ediv_nonneg nonnegative (Int.le_of_lt positive)
  have high := Int.ediv_le_self divisor.toInt nonnegative
  have divided : ((divisor - 1 - dividend) / divisor).toInt =
      -(depth dividend.toInt divisor.toInt / divisor.toInt) := by
    rw [Int32.toInt_div, raised, Int.neg_tdiv, Int.tdiv_eq_ediv_of_nonneg nonnegative,
      Int.bmod_eq_of_le (by omega) (by omega)]
  have below : ¬ 0 ≤ dividend := by
    rw [Int32.le_iff_toInt_le, zero]
    omega
  have upright : 0 ≤ divisor := by
    rw [Int32.le_iff_toInt_le, zero]
    omega
  rw [floorQuotient, if_neg below, if_pos upright, Int32.toInt_neg, divided, Int.neg_neg]

/-- Without room, the quotient of words is the mathematical one for a divisor of one only,
where the last step wraps back. -/
theorem toInt_floorQuotient_eq_iff_of_full :
    (floorQuotient dividend divisor).toInt = dividend.toInt / divisor.toInt ↔ divisor = 1 := by
  have least := dividend.le_toInt
  have word := divisor.toInt_lt
  have one : (1 : Int32).toInt = 1 := rfl
  rw [toInt_floorQuotient_of_full positive full]
  constructor
  · intro right
    by_contra other
    have two : 2 ≤ divisor.toInt := by
      have different : divisor.toInt ≠ 1 := fun same => other (Int32.toInt_inj.mp same)
      omega
    have nonnegative : 0 ≤ depth dividend.toInt divisor.toInt / divisor.toInt :=
      Int.ediv_nonneg (by rw [depth]; omega) (by omega)
    have half : depth dividend.toInt divisor.toInt / divisor.toInt < 0x80000000 :=
      Int.ediv_lt_of_lt_mul positive (by rw [depth]; omega)
    have negative := Int.ediv_neg_of_neg_of_pos (show dividend.toInt < 0 by omega) positive
    rw [Int.bmod_eq_of_le (by omega) (by omega)] at right
    omega
  · rintro rfl
    rw [one] at full ⊢
    have lowest : dividend.toInt = -0x80000000 := by omega
    rw [lowest]
    decide

/-- Without room, words leave nothing over for a divisor of one only. What they leave is one less
than the divisor and what the depth leaves, which is too little to wrap around to zero. -/
theorem floorRemainder_eq_zero_iff_of_full : floorRemainder dividend divisor = 0 ↔ divisor = 1 := by
  have least := dividend.le_toInt
  have word := divisor.toInt_lt
  have zero : (0 : Int32).toInt = 0 := rfl
  have one : (1 : Int32).toInt = 1 := rfl
  have low := Int.emod_nonneg (depth dividend.toInt divisor.toInt) (Int.ne_of_gt positive)
  have high := Int.emod_lt_of_pos (depth dividend.toInt divisor.toInt) positive
  have split := Int.mul_ediv_add_emod (depth dividend.toInt divisor.toInt) divisor.toInt
  have left :
      dividend.toInt - divisor.toInt * (depth dividend.toInt divisor.toInt / divisor.toInt) =
        divisor.toInt - 1 + depth dividend.toInt divisor.toInt % divisor.toInt - (2 ^ 32 : Nat) := by
    rw [depth] at split ⊢
    omega
  rw [← Int32.toInt_inj, zero, floorRemainder, Int32.toInt_sub, Int32.toInt_mul,
    toInt_floorQuotient_of_full positive full, Int.mul_bmod_bmod, Int.sub_bmod_bmod, left,
    Int.sub_bmod_right, ← Int32.toInt_inj, one]
  constructor
  · intro none
    have divides := Int.dvd_iff_bmod_eq_zero.mpr none
    have nothing := Int.eq_zero_of_dvd_of_nonneg_of_lt (by omega) (by omega) divides
    omega
  · intro same
    rw [same, Int.emod_one]
    rfl

end Wrapping

end PixelBlocks

import Mathlib.Algebra.Order.Field.Power
import Mathlib.Algebra.Order.Field.Rat
import Mathlib.Tactic.Ring
import PixelBlocks.Single
import PixelBlocks.Proofs.Transform.Rounding

/-!
# The numbers behind the bits

A finite number is a rational: its significand, scaled by a power of two, with its sign. All
bits but the sign, read as one natural number, are its magnitude bits. Within the numbers of
one exponent the size grows evenly with the magnitude bits, and it goes on evenly up to the
first number of the next exponent. So a change of the magnitude bits changes the size by as
many spacings of the exponent, also where it carries into the exponent, and larger magnitude
bits belong to larger sizes.
-/

namespace PixelBlocks.Single

/-- The rational that finite bits stand for. -/
def value (number : Single) : ℚ :=
  (if number.negative then -1 else 1) * number.significand * 2 ^ number.scale

/-- Finite, with an implicit leading bit. Zeroes and subnormal numbers have none. -/
def isNormal (number : Single) : Bool :=
  number.isFinite && number.exponentField != 0

/-- All bits but the sign. -/
def magnitudeBits (number : Single) : Nat := number.bits.toNat % 2 ^ 31

section Fields

variable (number : Single)

/-- The sign is the highest bit. -/
theorem negative_iff : number.negative = true ↔ number.bits.toNat / 2 ^ 31 = 1 := by
  have shifted : (number.bits >>> 31).toNat = number.bits.toNat / 2 ^ 31 := by
    rw [UInt32.toNat_shiftRight]
    exact Nat.shiftRight_eq_div_pow _ 31
  rw [negative, beq_iff_eq, ← UInt32.toNat_inj, shifted]
  rfl

/-- The exponent is the upper part of the magnitude bits. -/
theorem exponentField_eq : number.exponentField = number.magnitudeBits / 2 ^ 23 := by
  have shifted : (number.bits >>> 23).toNat = number.bits.toNat / 2 ^ 23 := by
    rw [UInt32.toNat_shiftRight]
    exact Nat.shiftRight_eq_div_pow _ 23
  have digits := Rounding.toNat_and_mask (number.bits >>> 23) 0xff 8 0 (by decide)
  rw [exponentField, digits, shifted, magnitudeBits]
  omega

/-- The fraction is the lower part of the magnitude bits. -/
theorem fraction_eq : number.fraction = number.magnitudeBits % 2 ^ 23 := by
  rw [fraction, Rounding.toNat_fraction, magnitudeBits]
  omega

/-- There are 31 magnitude bits. -/
theorem magnitudeBits_lt : number.magnitudeBits < 2 ^ 31 := Nat.mod_lt _ (by decide)

/-- Finite numbers are those below the infinities. -/
theorem isFinite_iff : number.isFinite = true ↔ number.magnitudeBits < 0x7f800000 := by
  have word := number.magnitudeBits_lt
  rw [isFinite, exponentField_eq, bne_iff_ne]
  omega

/-- NaNs are those above the infinities. -/
theorem isNaN_iff : number.isNaN = true ↔ 0x7f800000 < number.magnitudeBits := by
  have word := number.magnitudeBits_lt
  rw [isNaN, exponentField_eq, fraction_eq, Bool.and_eq_true, beq_iff_eq, bne_iff_ne]
  omega

/-- Normal numbers are the finite ones from the first implicit bit on. -/
theorem isNormal_iff :
    number.isNormal = true ↔
      2 ^ 23 ≤ number.magnitudeBits ∧ number.magnitudeBits < 0x7f800000 := by
  rw [isNormal, Bool.and_eq_true, isFinite_iff, exponentField_eq, bne_iff_ne]
  omega

end Fields

section Size

/-- The distance between neighbouring numbers of an exponent. -/
def spacing (exponent : Nat) : ℚ := 2 ^ ((max exponent 1 : Nat) - 150 : Int)

/-- The implicit leading bit of the numbers of an exponent. -/
def leadingBit (exponent : Nat) : Nat := if exponent = 0 then 0 else 2 ^ 23

/-- The size that magnitude bits stand for. -/
def sizeOf (magnitude : Nat) : ℚ :=
  (leadingBit (magnitude / 2 ^ 23) + magnitude % 2 ^ 23 : Nat) * spacing (magnitude / 2 ^ 23)

/-- Neighbouring numbers are apart. -/
theorem spacing_pos (exponent : Nat) : 0 < spacing exponent := by
  unfold spacing
  positivity

/-- From the first exponent with an implicit bit on, the distance doubles. -/
theorem spacing_succ {exponent : Nat} (implicit : exponent ≠ 0) :
    spacing (exponent + 1) = 2 * spacing exponent := by
  have larger : max (exponent + 1) 1 = exponent + 1 := by omega
  have same : max exponent 1 = exponent := by omega
  have sum : ((exponent + 1 : Nat) - 150 : Int) = ((exponent : Int) - 150) + 1 := by omega
  rw [spacing, spacing, larger, same, sum, zpow_add_one₀ (by norm_num), mul_comm]

/-- The size of the numbers of an exponent grows evenly, up to the first number of the next
exponent. -/
theorem sizeOf_add (exponent : Nat) {fraction : Nat} (within : fraction ≤ 2 ^ 23) :
    sizeOf (2 ^ 23 * exponent + fraction) =
      (leadingBit exponent + fraction : Nat) * spacing exponent := by
  rcases Nat.lt_or_eq_of_le within with inside | full
  · have upper : (2 ^ 23 * exponent + fraction) / 2 ^ 23 = exponent := by omega
    have lower : (2 ^ 23 * exponent + fraction) % 2 ^ 23 = fraction := by omega
    rw [sizeOf, upper, lower]
  · have upper : (2 ^ 23 * exponent + fraction) / 2 ^ 23 = exponent + 1 := by omega
    have lower : (2 ^ 23 * exponent + fraction) % 2 ^ 23 = 0 := by omega
    have next : leadingBit (exponent + 1) = 2 ^ 23 := if_neg (Nat.succ_ne_zero exponent)
    rw [sizeOf, upper, lower, next, full]
    -- The subnormal numbers have the spacing of the first normal ones, without their implicit bit.
    by_cases first : exponent = 0
    · rw [first]
      rfl
    · rw [spacing_succ first, leadingBit, if_neg first]
      push_cast
      ring

/-- Larger magnitude bits belong to larger sizes. -/
theorem sizeOf_strictMono : StrictMono sizeOf := by
  refine strictMono_nat_of_lt_succ fun magnitude => ?_
  have split : magnitude = 2 ^ 23 * (magnitude / 2 ^ 23) + magnitude % 2 ^ 23 := by omega
  have inside : magnitude % 2 ^ 23 < 2 ^ 23 := Nat.mod_lt _ (by decide)
  have here := sizeOf_add (magnitude / 2 ^ 23) (Nat.le_of_lt inside)
  have next := sizeOf_add (magnitude / 2 ^ 23) (Nat.succ_le_of_lt inside)
  rw [← split] at here
  rw [Nat.succ_eq_add_one, ← Nat.add_assoc, ← split] at next
  rw [here, next]
  refine mul_lt_mul_of_pos_right ?_ (spacing_pos _)
  exact_mod_cast Nat.lt_succ_self _

/-- No size is negative. -/
theorem sizeOf_nonneg (magnitude : Nat) : 0 ≤ sizeOf magnitude :=
  mul_nonneg (Nat.cast_nonneg _) (spacing_pos _).le

/-- A number is its size with its sign. -/
theorem value_eq (number : Single) :
    number.value = (if number.negative then -1 else 1) * sizeOf number.magnitudeBits := by
  have whole : number.significand = leadingBit (number.magnitudeBits / 2 ^ 23) +
      number.magnitudeBits % 2 ^ 23 := by
    rw [significand, leadingBit, exponentField_eq, fraction_eq]
    split <;> omega
  rw [value, scale, sizeOf, spacing, whole, exponentField_eq, mul_assoc]

-- Minus one and a half.
example : (Single.mk 0xbfc00000).value = -3 / 2 := by decide +kernel

/-- Without its sign a number is its size. -/
theorem abs_value (number : Single) : |number.value| = sizeOf number.magnitudeBits := by
  rw [value_eq, abs_mul, abs_of_nonneg (sizeOf_nonneg _)]
  cases number.negative <;> simp

end Size

section Distance

variable {number changed : Single} {fraction steps : Nat}

/-- A number whose fraction changed by some steps is that many spacings away. The new fraction
may carry into the exponent. -/
theorem abs_value_sub_le (sign : changed.negative = number.negative)
    (within : fraction ≤ 2 ^ 23)
    (near : changed.magnitudeBits = 2 ^ 23 * (number.magnitudeBits / 2 ^ 23) + fraction)
    (above : fraction ≤ number.magnitudeBits % 2 ^ 23 + steps)
    (below : number.magnitudeBits % 2 ^ 23 ≤ fraction + steps) :
    |number.value - changed.value| ≤ steps * spacing (number.magnitudeBits / 2 ^ 23) := by
  have size : sizeOf changed.magnitudeBits = _ := near ▸ sizeOf_add _ within
  have distance : |((number.magnitudeBits % 2 ^ 23 : Nat) : ℚ) - fraction| ≤ steps := by
    rw [abs_sub_le_iff, sub_le_iff_le_add', sub_le_iff_le_add']
    exact ⟨by exact_mod_cast below, by exact_mod_cast above⟩
  calc |number.value - changed.value|
      = |sizeOf number.magnitudeBits - sizeOf changed.magnitudeBits| := by
        rw [value_eq, value_eq, sign, ← mul_sub, abs_mul]
        cases number.negative <;> simp
    _ = |((number.magnitudeBits % 2 ^ 23 : Nat) : ℚ) - fraction| *
          spacing (number.magnitudeBits / 2 ^ 23) := by
        rw [size, sizeOf, ← sub_mul, abs_mul, abs_of_pos (spacing_pos _)]
        push_cast
        ring_nf
    _ ≤ steps * spacing (number.magnitudeBits / 2 ^ 23) :=
        mul_le_mul_of_nonneg_right distance (spacing_pos _).le

/-- Relative to a normal number, steps count as much as they are of the significand. -/
theorem steps_mul_spacing_lt (normal : number.isNormal = true)
    (small : steps * 2 ^ 16 < 2 ^ 23 + number.magnitudeBits % 2 ^ 23) :
    steps * spacing (number.magnitudeBits / 2 ^ 23) < 2 ^ (-16 : Int) * |number.value| := by
  have implicit : leadingBit (number.magnitudeBits / 2 ^ 23) = 2 ^ 23 := by
    have normal := number.isNormal_iff.mp normal
    exact if_neg (by omega)
  have fewer : (steps : ℚ) < 2 ^ (-16 : Int) * (2 ^ 23 + number.magnitudeBits % 2 ^ 23 : Nat) := by
    rw [zpow_neg, ← div_eq_inv_mul, lt_div_iff₀ (by positivity)]
    exact_mod_cast small
  rw [abs_value, sizeOf, implicit, ← mul_assoc]
  exact mul_lt_mul_of_pos_right fewer (spacing_pos _)

/-- Numbers without an implicit bit are multiples of the smallest number. -/
theorem spacing_subnormal (subnormal : number.exponentField = 0) :
    spacing (number.magnitudeBits / 2 ^ 23) = 2 ^ (-149 : Int) := by
  rw [← exponentField_eq, subnormal]
  rfl

end Distance

section Order

variable {number other : Single} {change : Single → Single} {kind : Single → Bool}

/-- Numbers of one sign are ordered as their magnitude bits, or the other way round if they
are negative. -/
theorem value_le_value_iff (sign : number.negative = other.negative) :
    number.value ≤ other.value ↔
      if number.negative then other.magnitudeBits ≤ number.magnitudeBits
      else number.magnitudeBits ≤ other.magnitudeBits := by
  rw [value_eq, value_eq, ← sign]
  cases number.negative <;> simp [sizeOf_strictMono.le_iff_le]

/-- A change that keeps signs, and on numbers of a kind the order of magnitude bits, keeps the
order of such numbers if they have one sign. -/
theorem value_change_le (kept : ∀ number, (change number).negative = number.negative)
    (grows : ∀ first second, kind first = true → kind second = true →
      first.magnitudeBits ≤ second.magnitudeBits →
        (change first).magnitudeBits ≤ (change second).magnitudeBits)
    (fits : kind number = true) (fitsOther : kind other = true)
    (sign : number.negative = other.negative) (ordered : number.value ≤ other.value) :
    (change number).value ≤ (change other).value := by
  have same : (change number).negative = (change other).negative := by rw [kept, kept, sign]
  rw [value_le_value_iff sign] at ordered
  rw [value_le_value_iff same, kept]
  cases negative : number.negative with
  | true =>
    rw [negative] at ordered
    exact grows other number fitsOther fits ordered
  | false =>
    rw [negative] at ordered
    exact grows number other fits fitsOther ordered

end Order

end PixelBlocks.Single

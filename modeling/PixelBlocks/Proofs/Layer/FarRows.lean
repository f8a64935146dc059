import Mathlib.Data.Rat.Floor
import PixelBlocks.Proofs.Layer.Sampling

/-!
# Rows of all 32 bits

A vertical sampling factor skips the rows that it does not divide. Whether it divides a row
is decided by a floor division in signed 32-bit words, which raises negative dividends first.
Rows that leave room for this are decided as they should be, and these are all rows of
accepted windows. For rows near the lowest number of a word the raised dividend wraps around.
Then the quotient is wrong, and every factor but one skips the row, also the factors that
divide it.
-/

namespace PixelBlocks

/-- A signed 32-bit word has room for a dividend that is raised by a divisor less one. Dividends
that are not negative always leave it. -/
def HasRoom (dividend divisor : Int) : Prop := divisor - 1 - dividend < 0x80000000

instance (dividend divisor : Int) : Decidable (HasRoom dividend divisor) :=
  inferInstanceAs (Decidable (_ < _))

/-- A quotient that is rounded down, and what it leaves over. -/
structure IsFloorDivision (dividend divisor quotient remainder : Int) : Prop where
  rounded : quotient = ⌊(dividend : ℚ) / (divisor : ℚ)⌋
  nonnegative : 0 ≤ remainder
  below : remainder < divisor
  whole : dividend = divisor * quotient + remainder

section Division

/-- The quotient of integers by a positive one is rounded down. -/
theorem floor_div_eq_ediv {dividend divisor : Int} (positive : 0 < divisor) :
    ⌊(dividend : ℚ) / (divisor : ℚ)⌋ = dividend / divisor := by
  obtain ⟨count, rfl⟩ := Int.eq_ofNat_of_zero_le (Int.le_of_lt positive)
  exact_mod_cast Rat.floor_intCast_div_natCast dividend count

/-- Quotient and remainder by a positive integer are those of a floor division. -/
theorem isFloorDivision_ediv {dividend divisor : Int} (positive : 0 < divisor) :
    IsFloorDivision dividend divisor (dividend / divisor) (dividend % divisor) where
  rounded := (floor_div_eq_ediv positive).symm
  nonnegative := Int.emod_nonneg dividend (Int.ne_of_gt positive)
  below := Int.emod_lt_of_pos dividend positive
  whole := (Int.mul_ediv_add_emod dividend divisor).symm

variable {dividend divisor : Int32} (positive : 0 < divisor.toInt)
include positive

/-- With room, the words are those of a floor division, and all steps to them have results. -/
theorem isFloorDivision_words (room : HasRoom dividend.toInt divisor.toInt) :
    IsFloorDivision dividend.toInt divisor.toInt (floorQuotient dividend divisor).toInt
        (floorRemainder dividend divisor).toInt ∧
      Checked.floorQuotient dividend.toInt divisor.toInt =
        .ok (floorQuotient dividend divisor).toInt ∧
      Checked.floorRemainder dividend.toInt divisor.toInt =
        .ok (floorRemainder dividend divisor).toInt := by
  have least := dividend.le_toInt
  have most := dividend.toInt_lt
  have word := divisor.toInt_lt
  rw [toInt_floorQuotient positive room, toInt_floorRemainder positive room]
  exact ⟨isFloorDivision_ediv positive,
    Checked.floorQuotient_eq_ok (by omega) (by omega) positive (by omega) room,
    Checked.floorRemainder_eq_ok (by omega) (by omega) positive (by omega) room⟩

/-- Without room, some step has no result, and the quotient of words is rounded down for a
divisor of one only. -/
theorem not_isFloorDivision_words (full : ¬ HasRoom dividend.toInt divisor.toInt) :
    Checked.floorQuotient dividend.toInt divisor.toInt = .error .outOfRange ∧
      Checked.floorRemainder dividend.toInt divisor.toInt = .error .outOfRange ∧
      ((floorQuotient dividend divisor).toInt = ⌊(dividend.toInt : ℚ) / (divisor.toInt : ℚ)⌋ ↔
        divisor = 1) := by
  have word := divisor.toInt_lt
  have excess : 0x80000000 ≤ divisor.toInt - 1 - dividend.toInt := Int.not_lt.mp full
  rw [floor_div_eq_ediv positive]
  exact ⟨Checked.floorQuotient_eq_outOfRange positive (by omega) excess,
    Checked.floorRemainder_eq_outOfRange positive (by omega) excess,
    toInt_floorQuotient_eq_iff_of_full positive excess⟩

/-- Words leave nothing over exactly if the divisor divides the dividend, and is one or there
is room. -/
theorem floorRemainder_eq_zero_iff :
    floorRemainder dividend divisor = 0 ↔
      divisor.toInt ∣ dividend.toInt ∧ (HasRoom dividend.toInt divisor.toInt ∨ divisor = 1) := by
  by_cases room : HasRoom dividend.toInt divisor.toInt
  · have zero : (0 : Int32).toInt = 0 := rfl
    rw [← Int32.toInt_inj, toInt_floorRemainder positive room, zero, Int.dvd_iff_emod_eq_zero]
    exact (and_iff_left (.inl room)).symm
  · rw [floorRemainder_eq_zero_iff_of_full positive (Int.not_lt.mp room), or_iff_right room]
    refine (and_iff_right_of_imp ?_).symm
    rintro rfl
    exact Int.one_dvd dividend.toInt

end Division

namespace Channel

section Rows

variable {channel : Channel} (columns : channel.sampling.x ≠ 0)
  (least : 1 ≤ channel.sampling.y.toNat) (most : channel.sampling.y.toNat ≤ 0x7fffffff)
include columns least most

/-- A row has samples exactly if the vertical factor divides it, and is one or leaves room. -/
theorem samplesInRow_eq_ite (row : Int32) (bounds : Rectangle) :
    channel.samplesInRow row bounds =
      .ok (if (channel.sampling.y.toNat : Int) ∣ row.toInt ∧
          (HasRoom row.toInt channel.sampling.y.toNat ∨ channel.sampling.y.toNat = 1) then
        bounds.size.x.toNat / channel.sampling.x.toNat else 0) := by
  have rows : channel.sampling.y ≠ 0 := fun zero => by simp [zero] at least
  have factor : (Int32.ofNat channel.sampling.y.toNat).toInt = channel.sampling.y.toNat :=
    Int32.toInt_ofNat_of_lt (by omega)
  have positive : 0 < (Int32.ofNat channel.sampling.y.toNat).toInt := by omega
  have single : Int32.ofNat channel.sampling.y.toNat = 1 ↔ channel.sampling.y.toNat = 1 := by
    have one : (1 : Int32).toInt = 1 := rfl
    rw [← Int32.toInt_inj, factor, one]
    omega
  rw [samplesInRow_eq_of_remainder columns rows (by omega)]
  simp only [ne_eq, floorRemainder_eq_zero_iff positive, factor, single, ite_not,
    UInt64.toNat_div]

/-- The samples of a row are counted without leaving a word exactly if there is room. -/
theorem checked_samplesInRow (row : Int32) (bounds : Rectangle) :
    Checked.samplesInRow channel row.toInt bounds =
      if HasRoom row.toInt channel.sampling.y.toNat then
        Checked.ofOutcome (channel.samplesInRow row bounds)
      else .error .outOfRange := by
  have rows : channel.sampling.y ≠ 0 := fun zero => by simp [zero] at least
  by_cases room : HasRoom row.toInt channel.sampling.y.toNat
  · rw [if_pos room]
    exact Checked.samplesInRow_eq_ofOutcome ⟨columns, rows, fun _ => room⟩ bounds
  · rw [if_neg room, Checked.samplesInRow, if_neg (by omega),
      Checked.floorRemainder_eq_outOfRange (by omega) (by omega) (Int.not_lt.mp room)]
    rfl

end Rows

/-- Floor division of any row, and its samples. By a positive divisor that has room, the
quotient is rounded down, the remainder is below the divisor and not negative, both make up
the row, and no step leaves its word. Without room some step leaves it, and the quotient is
rounded down by a divisor of one only. So the row has a sample for every full group of
columns if the vertical factor divides it, and is one or has room. Otherwise it has none. -/
theorem division_of_rows (row : Int32) :
    (∀ divisor : Int32, 0 < divisor →
      let x := row.toInt
      let y := divisor.toInt
      let quotient := (floorQuotient row divisor).toInt
      let remainder := (floorRemainder row divisor).toInt
      (HasRoom x y → IsFloorDivision x y quotient remainder ∧
        Checked.floorQuotient x y = .ok quotient ∧ Checked.floorRemainder x y = .ok remainder) ∧
      (¬ HasRoom x y → Checked.floorQuotient x y = .error .outOfRange ∧
        Checked.floorRemainder x y = .error .outOfRange ∧
        (quotient = ⌊(x : ℚ) / (y : ℚ)⌋ ↔ divisor = 1))) ∧
    ∀ (channel : Channel) (bounds : Rectangle),
      let factor := channel.sampling.y.toNat
      channel.sampling.x ≠ 0 → 1 ≤ factor → factor ≤ 0x7fffffff →
      channel.samplesInRow row bounds =
        .ok (if (factor : Int) ∣ row.toInt ∧ (HasRoom row.toInt factor ∨ factor = 1) then
          bounds.size.x.toNat / channel.sampling.x.toNat else 0) ∧
      Checked.samplesInRow channel row.toInt bounds =
        if HasRoom row.toInt factor then Checked.ofOutcome (channel.samplesInRow row bounds)
        else .error .outOfRange := by
  refine ⟨fun divisor positive => ?_, fun channel bounds => ?_⟩
  · have above : 0 < divisor.toInt := Int32.lt_iff_toInt_lt.mp positive
    exact ⟨isFloorDivision_words above, not_isFloorDivision_words above⟩
  · intro factor columns least most
    exact ⟨samplesInRow_eq_ite columns least most row bounds,
      checked_samplesInRow columns least most row bounds⟩

/-- Five rows above zero the quotient by two is minus three. Four rows above zero there are
samples of a channel with two rows to a sample, and the lowest row of all leaves no room. -/
theorem division_of_rows_above_zero :
    let channel := { full "C" .half with sampling := ⟨2, 2⟩ }
    let bounds : Rectangle := ⟨⟨0, -4⟩, ⟨9, 4⟩⟩
    (⌊((-5 : Int) : ℚ) / ((2 : Int) : ℚ)⌋ = -3 ∧
        Checked.floorRemainder (-5) 2 = .ok 1) ∧
      (Checked.floorQuotient (-0x80000000) 2 = .error .outOfRange ∧
        ⌊((-0x80000000 : Int) : ℚ) / ((2 : Int) : ℚ)⌋ ≠ 0x3fffffff) ∧
      channel.samplesInRow (-4) bounds = .ok 4 ∧
        Checked.samplesInRow channel (-4) bounds = .ok 4 := by
  obtain ⟨roomy, -⟩ := division_of_rows (-5)
  obtain ⟨lowest, -⟩ := division_of_rows (-0x80000000)
  obtain ⟨-, samples⟩ := division_of_rows (-4)
  obtain ⟨division, -, remainder⟩ := (roomy 2 (by decide)).1 (by decide)
  obtain ⟨outside, -, different⟩ := (lowest 2 (by decide)).2 (by decide)
  obtain ⟨counted, checked⟩ := samples { full "C" .half with sampling := ⟨2, 2⟩ }
    ⟨⟨0, -4⟩, ⟨9, 4⟩⟩ (by decide) (by decide) (by decide)
  refine ⟨⟨division.rounded.symm, remainder⟩, ⟨outside, fun same => ?_⟩, counted, checked⟩
  exact absurd (different.mp same.symm) (by decide)

/-- The lowest row is even, but the quotient of its word by two is positive. Then a channel
with two rows to a sample has none in it, and should have eight. -/
theorem division_of_rows_wraps :
    let channel := { full "C" .half with sampling := ⟨1, 2⟩ }
    let window : Rectangle := ⟨⟨0, 0⟩, ⟨8, 4⟩⟩
    channel.validate true window = .ok () ∧ (2 : Int) ∣ (-0x80000000 : Int32).toInt ∧
      floorQuotient (-0x80000000) 2 = 0x3fffffff ∧ floorRemainder (-0x80000000) 2 = 2 ∧
      Checked.floorQuotient (-0x80000000) 2 = .error .outOfRange ∧
      channel.samplesInRow (-0x80000000) window = .ok 0 :=
  ⟨rfl, by decide, by decide, by decide, rfl, rfl⟩

end Channel

end PixelBlocks

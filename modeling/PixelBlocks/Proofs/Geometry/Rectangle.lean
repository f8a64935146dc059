import Mathlib.Tactic.MkIffOfInductiveProp
import PixelBlocks.Geometry.Rectangle
import PixelBlocks.Proofs.Outcome

/-!
# Rows and corners of rectangles

A rectangle whose opposite corner exists is an interval of rows, all of one width. Its
coordinates are words, and what is said about them here is said in integers. Accepted
rectangles keep a distance to the ends of the words that leaves room for sums.
-/

namespace PixelBlocks

/-- As a signed word, a size wraps around at half of its bound. -/
theorem toInt_toInt64_eq_bmod (size : UInt64) :
    size.toInt64.toInt = (size.toNat : Int).bmod 0x10000000000000000 := by
  rw [← Int64.toInt_toBitVec, UInt64.toBitVec_toInt64, BitVec.toInt_eq_toNat_bmod,
    UInt64.toNat_toBitVec]

/-- A size below half of the bound is the same number as a signed word. -/
theorem toInt_toInt64 {size : UInt64} (fits : size.toNat < 0x8000000000000000) :
    size.toInt64.toInt = size.toNat := by
  rw [toInt_toInt64_eq_bmod, Int.bmod_eq_of_le (by omega) (by omega)]

namespace Pair

/-- Sizes are 32-bit numbers exactly if both of their parts are. -/
theorem toInt32_eq_ok_iff {size : Pair UInt64} {words : Pair Int32} :
    size.toInt32 = .ok words ↔
      (size.x.toNat < 0x80000000 ∧ size.y.toNat < 0x80000000) ∧
        words = ⟨Int32.ofNat size.x.toNat, Int32.ofNat size.y.toNat⟩ := by
  rw [toInt32, Outcome.guard_eq_ok_iff, Outcome.guard_eq_ok_iff]
  simp only [Nat.not_le, Except.ok.injEq, and_assoc, eq_comm]

end Pair

namespace Rectangle

/-- The rows of a rectangle, from its first to its last. -/
def rows (rectangle : Rectangle) : List Int :=
  (List.range rectangle.size.y.toNat).map fun index : Nat => rectangle.position.y.toInt + index

/-- A shifted coordinate is the sum, where it exists. -/
theorem shiftedBy_eq_some_iff {start extent stop : Int32} :
    shiftedBy start extent = some stop ↔ stop.toInt = start.toInt + extent.toInt := by
  unfold shiftedBy
  by_cases inside : -0x80000000 ≤ start.toInt + extent.toInt ∧
      start.toInt + extent.toInt < 0x80000000
  · have sum : (start + extent).toInt = start.toInt + extent.toInt := by
      rw [Int32.toInt_add, Int.bmod_eq_of_le (by omega) (by omega)]
    rw [if_pos inside]
    constructor
    · rintro ⟨⟩
      exact sum
    · intro same
      exact congrArg some (Int32.toInt_inj.mp (sum.trans same.symm))
  · rw [if_neg inside]
    constructor
    · rintro ⟨⟩
    · intro same
      have least := stop.le_toInt
      have most := stop.toInt_lt
      exact absurd (by omega) inside

/-- The opposite corner exists exactly if size and corner are 32-bit numbers. -/
theorem opposite_eq_ok_iff {rectangle : Rectangle} {corner : Pair Int32} :
    rectangle.opposite = .ok corner ↔
      (rectangle.size.x.toNat < 0x80000000 ∧ rectangle.size.y.toNat < 0x80000000) ∧
        corner.x.toInt = rectangle.position.x.toInt + rectangle.size.x.toNat ∧
        corner.y.toInt = rectangle.position.y.toInt + rectangle.size.y.toNat := by
  have word (size : UInt64) (fits : size.toNat < 0x80000000) :
      (Int32.ofNat size.toNat).toInt = size.toNat := Int32.toInt_ofNat_of_lt fits
  constructor
  · intro found
    obtain ⟨size, sized, shifted⟩ := Outcome.bind_eq_ok_iff.mp found
    obtain ⟨⟨narrow, short⟩, rfl⟩ := Pair.toInt32_eq_ok_iff.mp sized
    dsimp only at shifted
    split at shifted
    · next right below atRight atBelow =>
      cases shifted
      rw [shiftedBy_eq_some_iff, word _ narrow] at atRight
      rw [shiftedBy_eq_some_iff, word _ short] at atBelow
      exact ⟨⟨narrow, short⟩, atRight, atBelow⟩
    · cases shifted
  · rintro ⟨⟨narrow, short⟩, right, below⟩
    rw [opposite, Pair.toInt32_eq_ok_iff.mpr ⟨⟨narrow, short⟩, rfl⟩, Outcome.ok_bind]
    dsimp only
    rw [← word _ narrow] at right
    rw [← word _ short] at below
    rw [shiftedBy_eq_some_iff.mpr right, shiftedBy_eq_some_iff.mpr below]

/-- A rectangle has an opposite corner if its size and its stops are 32-bit numbers. -/
theorem exists_opposite_of_lt {rectangle : Rectangle}
    (narrow : rectangle.size.x.toNat < 0x80000000) (short : rectangle.size.y.toNat < 0x80000000)
    (right : rectangle.position.x.toInt + rectangle.size.x.toNat < 0x80000000)
    (below : rectangle.position.y.toInt + rectangle.size.y.toNat < 0x80000000) :
    ∃ corner, rectangle.opposite = .ok corner := by
  have left := rectangle.position.x.le_toInt
  have above := rectangle.position.y.le_toInt
  refine ⟨⟨Int32.ofInt (rectangle.position.x.toInt + rectangle.size.x.toNat),
    Int32.ofInt (rectangle.position.y.toInt + rectangle.size.y.toNat)⟩, ?_⟩
  refine opposite_eq_ok_iff.mpr ⟨⟨narrow, short⟩, ?_, ?_⟩
  · exact Int32.toInt_ofInt_of_le (by omega) (by omega)
  · exact Int32.toInt_ofInt_of_le (by omega) (by omega)

/-- One rectangle contains another exactly if all corners exist and lie in this order. -/
theorem contains_eq_ok_true_iff {outer inner : Rectangle} :
    outer.contains inner = .ok true ↔
      ∃ outerEnd innerEnd, outer.opposite = .ok outerEnd ∧ inner.opposite = .ok innerEnd ∧
        (outer.position.x ≤ inner.position.x ∧ outer.position.y ≤ inner.position.y) ∧
        innerEnd.x ≤ outerEnd.x ∧ innerEnd.y ≤ outerEnd.y := by
  constructor
  · intro found
    obtain ⟨outerEnd, outside, found⟩ := Outcome.bind_eq_ok_iff.mp found
    obtain ⟨innerEnd, inside, found⟩ := Outcome.bind_eq_ok_iff.mp found
    simp only [Outcome.pure_eq_ok, Except.ok.injEq, Bool.and_eq_true, decide_eq_true_eq] at found
    obtain ⟨⟨⟨left, above⟩, right⟩, below⟩ := found
    exact ⟨outerEnd, innerEnd, outside, inside, ⟨left, above⟩, right, below⟩
  · rintro ⟨outerEnd, innerEnd, outside, inside, ⟨left, above⟩, right, below⟩
    simp [contains, outside, inside, left, above, right, below]

/-- One rectangle lies within another: its corners lie within the corners of that. -/
@[mk_iff] structure Within (inner outer : Rectangle) : Prop where
  left : outer.position.x.toInt ≤ inner.position.x.toInt
  above : outer.position.y.toInt ≤ inner.position.y.toInt
  right : inner.position.x.toInt + inner.size.x.toNat ≤
    outer.position.x.toInt + outer.size.x.toNat
  below : inner.position.y.toInt + inner.size.y.toNat ≤
    outer.position.y.toInt + outer.size.y.toNat

instance (inner outer : Rectangle) : Decidable (inner.Within outer) :=
  decidable_of_iff' _ (within_iff inner outer)

/-- A rectangle within another one lies within what that one lies within. -/
theorem Within.trans {inner middle outer : Rectangle} (inside : inner.Within middle)
    (outside : middle.Within outer) : inner.Within outer := by
  obtain ⟨left, above, right, below⟩ := inside
  obtain ⟨outerLeft, outerAbove, outerRight, outerBelow⟩ := outside
  exact ⟨by omega, by omega, by omega, by omega⟩

/-- A rectangle within one that has an opposite corner has one, too. -/
theorem Within.exists_opposite {inner outer : Rectangle} {corner : Pair Int32}
    (inside : inner.Within outer) (found : outer.opposite = .ok corner) :
    ∃ corner, inner.opposite = .ok corner := by
  obtain ⟨⟨narrow, short⟩, across, down⟩ := opposite_eq_ok_iff.mp found
  obtain ⟨left, above, right, below⟩ := inside
  have most := corner.x.toInt_lt
  have lowest := corner.y.toInt_lt
  exact exists_opposite_of_lt (by omega) (by omega) (by omega) (by omega)

/-- One rectangle contains another exactly if it has an opposite corner and the other one lies
within it. -/
theorem contains_eq_ok_true_iff_within {outer inner : Rectangle} :
    outer.contains inner = .ok true ↔
      (∃ corner, outer.opposite = .ok corner) ∧ inner.Within outer := by
  rw [contains_eq_ok_true_iff]
  simp only [Int32.le_iff_toInt_le]
  constructor
  · rintro ⟨outerEnd, innerEnd, outside, inside, ⟨left, above⟩, right, below⟩
    obtain ⟨-, across, down⟩ := opposite_eq_ok_iff.mp outside
    obtain ⟨-, innerAcross, innerDown⟩ := opposite_eq_ok_iff.mp inside
    exact ⟨⟨outerEnd, outside⟩, left, above, by omega, by omega⟩
  · rintro ⟨⟨outerEnd, outside⟩, within⟩
    obtain ⟨innerEnd, inside⟩ := within.exists_opposite outside
    obtain ⟨left, above, right, below⟩ := within
    obtain ⟨-, across, down⟩ := opposite_eq_ok_iff.mp outside
    obtain ⟨-, innerAcross, innerDown⟩ := opposite_eq_ok_iff.mp inside
    exact ⟨outerEnd, innerEnd, outside, inside, ⟨left, above⟩, by omega, by omega⟩

section Limits

/-- An axis that is accepted: it starts behind the lower limit, and stops before the upper one.
The stop is a signed word, so it counts as negative from half of the bound on. -/
def AxisAccepted (start : Int32) (extent : UInt64) : Prop :=
  -0x3fffffff < start.toInt ∧
    (start.toInt + extent.toNat < 0x3fffffff ∨
      0x8000000000000000 ≤ start.toInt + extent.toNat ∧
        start.toInt + extent.toNat < 0x10000000000000000 + 0x3fffffff)

/-- The axes that pass the check are the accepted ones. -/
theorem axisIsWithinLimits_iff {start : Int32} {extent : UInt64} :
    axisIsWithinLimits start extent = true ↔ AxisAccepted start extent := by
  have most := start.toInt_lt
  have bounded := extent.toNat_lt
  have upper : coordinateLimit.toInt = 0x3fffffff := rfl
  have lower : (-coordinateLimit).toInt = -0x3fffffff := rfl
  have stop : (start.toInt64 + extent.toInt64).toInt =
      (start.toInt + extent.toNat).bmod 0x10000000000000000 := by
    rw [Int64.toInt_add, Int32.toInt_toInt64, toInt_toInt64_eq_bmod]
    exact Int.add_bmod_bmod
  simp only [axisIsWithinLimits, Bool.and_eq_true, decide_eq_true_eq, Int64.lt_iff_toInt_lt,
    Int32.toInt_toInt64, stop, Int.bmod_def, upper, lower, AxisAccepted]
  apply and_congr_right
  intro behind
  omega

/-- An accepted axis starts behind the lower limit. -/
theorem lt_start_of_axis {start : Int32} {extent : UInt64}
    (accepted : axisIsWithinLimits start extent = true) : -0x3fffffff < start.toInt :=
  (axisIsWithinLimits_iff.mp accepted).1

/-- An accepted axis of an extent that is a 32-bit number stops before the upper limit. -/
theorem stop_lt_of_axis {start : Int32} {extent : UInt64} (fits : extent.toNat < 0x80000000)
    (accepted : axisIsWithinLimits start extent = true) :
    start.toInt + extent.toNat < 0x3fffffff := by
  have most := start.toInt_lt
  obtain ⟨-, before | ⟨wrapped, -⟩⟩ := axisIsWithinLimits_iff.mp accepted
  · exact before
  · omega

variable {rectangle : Rectangle}

/-- A rectangle is accepted exactly if it is not too large and both of its axes are
accepted. -/
theorem validate_eq_ok_iff {largest : Option (Pair UInt64)} :
    rectangle.validate largest = .ok () ↔
      (∀ size, largest = some size →
        ¬ (size.x < rectangle.size.x ∨ size.y < rectangle.size.y)) ∧
      axisIsWithinLimits rectangle.position.x rectangle.size.x = true ∧
      axisIsWithinLimits rectangle.position.y rectangle.size.y = true := by
  cases largest with
  | none => simp [validate]
  | some size => simp [validate, Outcome.guard_eq_ok_iff]

/-- A rectangle within an accepted one of 32-bit size is accepted exactly if it is not too
large. -/
theorem validate_eq_ok_iff_of_within {outer inner : Rectangle} {corner : Pair Int32}
    (accepted : outer.validate none = .ok ()) (found : outer.opposite = .ok corner)
    (inside : inner.Within outer) (largest : Pair UInt64) :
    inner.validate (some largest) = .ok () ↔
      inner.size.x.toNat ≤ largest.x.toNat ∧ inner.size.y.toNat ≤ largest.y.toNat := by
  obtain ⟨⟨narrow, short⟩, -⟩ := opposite_eq_ok_iff.mp found
  obtain ⟨-, across, down⟩ := validate_eq_ok_iff.mp accepted
  obtain ⟨left, above, right, below⟩ := inside
  have leftmost := lt_start_of_axis across
  have rightmost := stop_lt_of_axis narrow across
  have highest := lt_start_of_axis down
  have lowest := stop_lt_of_axis short down
  have horizontal : axisIsWithinLimits inner.position.x inner.size.x = true :=
    axisIsWithinLimits_iff.mpr ⟨by omega, .inl (by omega)⟩
  have vertical : axisIsWithinLimits inner.position.y inner.size.y = true :=
    axisIsWithinLimits_iff.mpr ⟨by omega, .inl (by omega)⟩
  rw [validate_eq_ok_iff]
  simp [horizontal, vertical, UInt64.lt_iff_toNat_lt]

/-- Accepted rectangles of a size of 32-bit numbers have an opposite corner. -/
theorem exists_opposite {largest : Option (Pair UInt64)}
    (accepted : rectangle.validate largest = .ok ())
    (narrow : rectangle.size.x.toNat < 0x80000000) (short : rectangle.size.y.toNat < 0x80000000) :
    ∃ corner, rectangle.opposite = .ok corner := by
  obtain ⟨-, across, down⟩ := validate_eq_ok_iff.mp accepted
  have right := stop_lt_of_axis narrow across
  have below := stop_lt_of_axis short down
  exact exists_opposite_of_lt narrow short (by omega) (by omega)

end Limits

end Rectangle

end PixelBlocks

import PixelBlocks.Proofs.Flat
import PixelBlocks.Proofs.Layer.Sampling

/-!
# Places of blocks

A block of scan lines is accepted where its first row lies in the window, a multiple of
the block height behind the first row of the window. A tile is accepted where it lies in
the window and is not too large. Finding this out leaves no word.
-/

namespace PixelBlocks

/-- Blocks are at least one scan line high and at most 256. -/
theorem Method.scanLines_bounds (method : Method) :
    0 < method.scanLines ∧ method.scanLines ≤ 256 := by
  cases method <;> simp [scanLines, entry]

/-- The height of a block is a size like any other. -/
theorem Method.toNat_ofNat_scanLines (method : Method) :
    (UInt64.ofNat method.scanLines).toNat = method.scanLines :=
  UInt64.toNat_ofNat_of_lt' (Nat.lt_of_le_of_lt method.scanLines_bounds.2 (by decide))

/-- The distance from a word to a later one is the difference, if it is a word. -/
theorem toInt_sub_of_le {later earlier : Int32} (ordered : earlier.toInt ≤ later.toInt)
    (word : later.toInt - earlier.toInt < 0x80000000) :
    (later - earlier).toInt = later.toInt - earlier.toInt := by
  rw [Int32.toInt_sub, Int.bmod_eq_of_le (by omega) (by omega)]

namespace FlatCompressor

variable {compressor : FlatCompressor} {row : Int32} {corner : Pair Int32} {bounds : Rectangle}

/-- A row of the window is less than a word behind its first row and before its end. -/
theorem distances_of_opposite (found : compressor.window.opposite = .ok corner)
    (inside : ¬ (row < compressor.window.position.y ∨ corner.y ≤ row)) :
    (compressor.window.position.y.toInt ≤ row.toInt ∧ row.toInt < corner.y.toInt) ∧
      (row - compressor.window.position.y).toInt =
        row.toInt - compressor.window.position.y.toInt ∧
      (corner.y - row).toInt = corner.y.toInt - row.toInt := by
  obtain ⟨⟨-, short⟩, -, below⟩ := Rectangle.opposite_eq_ok_iff.mp found
  rw [Int32.lt_iff_toInt_lt, Int32.le_iff_toInt_le, not_or] at inside
  exact ⟨by omega, toInt_sub_of_le (by omega) (by omega), toInt_sub_of_le (by omega) (by omega)⟩

/-- A block is found at a row exactly if the row lies in the window, a multiple of the block
height behind its start. -/
theorem blockAt_eq (lines : 0 < compressor.scanLines ∧ compressor.scanLines < 0x80000000)
    (found : compressor.window.opposite = .ok corner) (row : Int32) :
    compressor.blockAt row =
      if row < compressor.window.position.y ∨ corner.y ≤ row then
        .error (.invalid (.originOutside row))
      else if (row.toInt - compressor.window.position.y.toInt) % compressor.scanLines ≠ 0 then
        .error (.invalid (.originUnaligned row compressor.scanLines))
      else .ok ⟨⟨compressor.window.position.x, row⟩, ⟨compressor.window.size.x,
        UInt64.ofNat (min (corner.y.toInt - row.toInt).toNat compressor.scanLines)⟩⟩ := by
  have height : (Int32.ofNat compressor.scanLines).toInt = compressor.scanLines :=
    Int32.toInt_ofNat_of_lt lines.2
  rw [blockAt, found, Outcome.ok_bind]
  by_cases outside : row < compressor.window.position.y ∨ corner.y ≤ row
  · rw [if_pos outside, if_pos outside]
  · obtain ⟨⟨behind, before⟩, offset, distance⟩ := distances_of_opposite found outside
    have remainder : (floorRemainder (row - compressor.window.position.y)
        (Int32.ofNat compressor.scanLines)).toInt =
          (row.toInt - compressor.window.position.y.toInt) % compressor.scanLines := by
      rw [toInt_floorRemainder (by omega) (by omega), offset, height]
    have aligned : floorRemainder (row - compressor.window.position.y)
        (Int32.ofNat compressor.scanLines) ≠ 0 ↔
          (row.toInt - compressor.window.position.y.toInt) % compressor.scanLines ≠ 0 := by
      rw [ne_eq, ← Int32.toInt_inj, remainder]
      rfl
    rw [if_neg outside, if_neg outside]
    simp only [aligned, distance, Outcome.pure_eq_ok]

/-- A block is accepted exactly at the rows of the window that lie a multiple of the block
height behind its start, and reaches to the next such row or to the end of the window. -/
theorem blockAt_eq_ok_iff
    (lines : 0 < compressor.scanLines ∧ compressor.scanLines < 0x80000000)
    (found : compressor.window.opposite = .ok corner) :
    compressor.blockAt row = .ok bounds ↔
      (compressor.window.position.y.toInt ≤ row.toInt ∧ row.toInt < corner.y.toInt) ∧
      (row.toInt - compressor.window.position.y.toInt) % compressor.scanLines = 0 ∧
      bounds = ⟨⟨compressor.window.position.x, row⟩, ⟨compressor.window.size.x,
        UInt64.ofNat (min (corner.y.toInt - row.toInt).toNat compressor.scanLines)⟩⟩ := by
  rw [blockAt_eq lines found, Outcome.guard_eq_ok_iff, Outcome.guard_eq_ok_iff, not_or, not_not,
    Int32.lt_iff_toInt_lt, Int32.le_iff_toInt_le, Int.not_lt, Int.not_le, Except.ok.injEq,
    @eq_comm _ bounds]

/-- A tile is accepted exactly if it is accepted as a rectangle of at most the largest size
and the window contains it. -/
theorem validateTile_eq_ok_iff {tile : Rectangle} :
    compressor.validateTile tile = .ok () ↔
      tile.validate (some compressor.largest) = .ok () ∧
        compressor.window.contains tile = .ok true := by
  constructor
  · intro accepted
    obtain ⟨⟨⟩, valid, accepted⟩ := Outcome.bind_eq_ok_iff.mp accepted
    obtain ⟨inside, found, accepted⟩ := Outcome.bind_eq_ok_iff.mp accepted
    cases inside with
    | false => cases accepted
    | true => exact ⟨valid, found⟩
  · rintro ⟨valid, inside⟩
    rw [validateTile, valid, Outcome.ok_bind, inside]
    rfl

/-- Blocks of the instances of a layer are a few scan lines high. -/
theorem Serves.scanLines_bounds {layer : Layer} (serves : Serves layer compressor) :
    0 < compressor.scanLines ∧ compressor.scanLines < 0x80000000 := by
  have bounds := layer.method.scanLines_bounds
  rw [serves.scanLines]
  omega

end FlatCompressor

namespace Checked

open FlatCompressor

variable {compressor : FlatCompressor} {bounds : Rectangle}

/-- The rectangle of a block, found in steps that are checked. -/
def blockAt (compressor : FlatCompressor) (row : Int32) : Checked Rectangle := do
  let first := compressor.window.position.y
  let opposite ← ofOutcome compressor.window.opposite
  if row < first ∨ opposite.y ≤ row then .error (.fault (.invalid (.originOutside row)))
  else do
    let offset ← signed 32 (row.toInt - first.toInt)
    let left ← floorRemainder offset compressor.scanLines
    if left ≠ 0 then .error (.fault (.invalid (.originUnaligned row compressor.scanLines)))
    else do
      let distance ← signed 32 (opposite.y.toInt - row.toInt)
      let height ← size distance
      return ⟨⟨compressor.window.position.x, row⟩,
        ⟨compressor.window.size.x, UInt64.ofNat (min height compressor.scanLines)⟩⟩

/-- Refuses rectangles that are too large or too far out. Ends of axes are sums of signed
64-bit words, which are checked. -/
def validateRectangle (rectangle : Rectangle) (largest : Pair UInt64) : Checked Unit :=
  if largest.x < rectangle.size.x ∨ largest.y < rectangle.size.y then
    .error (.fault (.invalid .sectionSize))
  else do
    let right ← signed 64 (rectangle.position.x.toInt + rectangle.size.x.toInt64.toInt)
    let below ← signed 64 (rectangle.position.y.toInt + rectangle.size.y.toInt64.toInt)
    if 0x3fffffff ≤ right ∨ 0x3fffffff ≤ below ∨ rectangle.position.x.toInt ≤ -0x3fffffff ∨
        rectangle.position.y.toInt ≤ -0x3fffffff then
      .error (.fault (.invalid .windowLimit))
    else .ok ()

/-- The rectangle of a place that the compressor accepts, found in steps that are checked. -/
def boundsOf (compressor : FlatCompressor) : Place → Checked Rectangle
  | .scanLines row => blockAt compressor row
  | .tile bounds => do
    validateRectangle bounds compressor.largest
    let inside ← ofOutcome (compressor.window.contains bounds)
    if inside then .ok bounds else .error (.fault (.invalid .tileOutside))

/-- Finding the rectangle of a block leaves no word, whatever the row is. -/
theorem blockAt_eq_ofOutcome
    (lines : 0 < compressor.scanLines ∧ compressor.scanLines < 0x80000000) (row : Int32) :
    blockAt compressor row = ofOutcome (compressor.blockAt row) := by
  cases found : compressor.window.opposite with
  | error fault =>
    rw [blockAt, FlatCompressor.blockAt, found]
    rfl
  | ok corner =>
    rw [blockAt_eq lines found, blockAt, found, ofOutcome_ok, Outcome.ok_bind]
    by_cases outside : row < compressor.window.position.y ∨ corner.y ≤ row
    · rw [if_pos outside, if_pos outside]
      rfl
    · obtain ⟨⟨behind, before⟩, offset, distance⟩ := distances_of_opposite found outside
      have near := (row - compressor.window.position.y).toInt_lt
      have far := (corner.y - row).toInt_lt
      have fits : corner.y.toInt - row.toInt < Size.bound := by
        simp only [Size.bound]
        omega
      rw [if_neg outside, if_neg outside, signed_eq_ok (by omega) (by omega),
        Outcome.ok_bind, floorRemainder_eq_ok (by omega) (by omega) (by omega) (by omega)
        (by omega), Outcome.ok_bind, signed_eq_ok (by omega) (by omega), Outcome.ok_bind,
        size_eq_ok (by omega) fits]
      split <;> rfl

/-- Accepted rectangles whose size is one of 32-bit numbers are accepted in steps that are
checked. -/
theorem validateRectangle_eq_ok {rectangle : Rectangle} {largest : Pair UInt64}
    (accepted : rectangle.validate (some largest) = .ok ())
    (narrow : rectangle.size.x.toNat < 0x80000000) (short : rectangle.size.y.toNat < 0x80000000) :
    validateRectangle rectangle largest = .ok () := by
  obtain ⟨notLarge, across, down⟩ := Rectangle.validate_eq_ok_iff.mp accepted
  have left := Rectangle.lt_start_of_axis across
  have right := Rectangle.stop_lt_of_axis narrow across
  have above := Rectangle.lt_start_of_axis down
  have below := Rectangle.stop_lt_of_axis short down
  rw [validateRectangle, if_neg (notLarge largest rfl), toInt_toInt64 (by omega),
    toInt_toInt64 (by omega), signed_eq_ok (by omega) (by omega), Outcome.ok_bind,
    signed_eq_ok (by omega) (by omega), Outcome.ok_bind]
  exact if_neg (by omega)

/-- An accepted place is accepted without leaving a word. -/
theorem boundsOf_eq_ok {layer : Layer} (serves : Serves layer compressor) {place : Place}
    (placed : compressor.boundsOf place = .ok bounds) : boundsOf compressor place = .ok bounds := by
  cases place with
  | scanLines row =>
    rw [boundsOf, blockAt_eq_ofOutcome serves.scanLines_bounds]
    exact congrArg ofOutcome placed
  | tile tile =>
    obtain ⟨⟨⟩, accepted, placed⟩ := Outcome.bind_eq_ok_iff.mp placed
    cases placed
    obtain ⟨valid, inside⟩ := validateTile_eq_ok_iff.mp accepted
    obtain ⟨-, corner, -, found, -⟩ := Rectangle.contains_eq_ok_true_iff.mp inside
    obtain ⟨⟨narrow, short⟩, -⟩ := Rectangle.opposite_eq_ok_iff.mp found
    rw [boundsOf, validateRectangle_eq_ok valid narrow short, Outcome.ok_bind, inside]
    rfl

end Checked

end PixelBlocks

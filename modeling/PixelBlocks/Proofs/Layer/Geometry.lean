import PixelBlocks.Proofs.Geometry.Rectangle
import PixelBlocks.Proofs.Layer

/-!
# Windows and tiles at the ends of their words

A window is checked in signed words, and the area of a tile is a word itself. Both wrap, so
what passes is stated here for sizes of all 64 bits: which windows and tiles are accepted,
and which of them are what they should be. A window whose stops are signed words is accepted
exactly if it lies between the limits, and then it has an opposite corner. Any other accepted
window has none. A tile whose area is a word is accepted exactly if it is not empty. A larger
one is refused if its area is a multiple of the bound.
-/

namespace PixelBlocks

namespace Rectangle

variable {rectangle : Rectangle}

/-- A rectangle whose stops on both axes are signed 64-bit words. -/
structure StopsFit (rectangle : Rectangle) : Prop where
  right : rectangle.position.x.toInt + rectangle.size.x.toNat < 0x8000000000000000
  below : rectangle.position.y.toInt + rectangle.size.y.toNat < 0x8000000000000000

/-- A rectangle that lies strictly between the limits on both axes, as integers. -/
structure BetweenLimits (rectangle : Rectangle) : Prop where
  left : -0x3fffffff < rectangle.position.x.toInt
  right : rectangle.position.x.toInt + rectangle.size.x.toNat < 0x3fffffff
  above : -0x3fffffff < rectangle.position.y.toInt
  below : rectangle.position.y.toInt + rectangle.size.y.toNat < 0x3fffffff

/-- Without a largest size, a rectangle is accepted exactly if its axes are. -/
theorem validate_none_iff :
    rectangle.validate none = .ok () ↔
      AxisAccepted rectangle.position.x rectangle.size.x ∧
        AxisAccepted rectangle.position.y rectangle.size.y := by
  rw [validate_eq_ok_iff, axisIsWithinLimits_iff, axisIsWithinLimits_iff]
  simp

/-- An axis whose stop is a signed word is accepted exactly if it lies between the limits. -/
theorem axisAccepted_iff {start : Int32} {extent : UInt64}
    (fits : start.toInt + extent.toNat < 0x8000000000000000) :
    AxisAccepted start extent ↔
      -0x3fffffff < start.toInt ∧ start.toInt + extent.toNat < 0x3fffffff := by
  unfold AxisAccepted
  omega

/-- A rectangle whose stops are signed words is accepted exactly if it lies between the
limits. -/
theorem validate_iff_betweenLimits (fits : rectangle.StopsFit) :
    rectangle.validate none = .ok () ↔ rectangle.BetweenLimits := by
  rw [validate_none_iff, axisAccepted_iff fits.right, axisAccepted_iff fits.below]
  constructor
  · rintro ⟨⟨left, right⟩, above, below⟩
    exact ⟨left, right, above, below⟩
  · rintro ⟨left, right, above, below⟩
    exact ⟨⟨left, right⟩, above, below⟩

/-- Between the limits all stops are signed words. -/
theorem BetweenLimits.stopsFit (limits : rectangle.BetweenLimits) : rectangle.StopsFit := by
  obtain ⟨left, right, above, below⟩ := limits
  exact ⟨by omega, by omega⟩

/-- The check is right about a rectangle exactly if the rectangle is refused or its stops are
signed words. -/
theorem validate_right_iff :
    (rectangle.validate none = .ok () ↔ rectangle.BetweenLimits) ↔
      (rectangle.validate none = .ok () → rectangle.StopsFit) := by
  constructor
  · intro right accepted
    exact (right.mp accepted).stopsFit
  · intro fits
    refine ⟨fun accepted => (validate_iff_betweenLimits (fits accepted)).mp accepted, ?_⟩
    intro limits
    exact (validate_iff_betweenLimits limits.stopsFit).mpr limits

/-- An accepted rectangle has an opposite corner exactly if its stops are signed words. -/
theorem exists_opposite_iff (accepted : rectangle.validate none = .ok ()) :
    (∃ corner, rectangle.opposite = .ok corner) ↔ rectangle.StopsFit := by
  constructor
  · rintro ⟨corner, found⟩
    obtain ⟨-, right, below⟩ := opposite_eq_ok_iff.mp found
    have rightmost := corner.x.toInt_lt
    have lowest := corner.y.toInt_lt
    exact ⟨by omega, by omega⟩
  · intro fits
    obtain ⟨left, right, above, below⟩ := (validate_iff_betweenLimits fits).mp accepted
    exact exists_opposite accepted (by omega) (by omega)

end Rectangle

namespace Layer

/-- The layer with tiles of the given size. -/
def tiled (layer : Layer) (size : Pair UInt64) : Layer :=
  { layer with partition := .tiles size }

variable {layer : Layer} {size other : Pair UInt64}

/-- The area of a tile is zero exactly if the product is a multiple of the bound. -/
theorem area_eq_zero_iff : size.area = 0 ↔ Size.bound ∣ size.x.toNat * size.y.toNat := by
  rw [Pair.area, ← UInt64.toNat_inj, UInt64.toNat_mul, Nat.dvd_iff_mod_eq_zero]
  rfl

/-- A layer is accepted with tiles of one size exactly if it is with those of another one, as
long as the area of the tiles is not zero. -/
theorem validate_tiled_iff (accepted : (layer.tiled other).validate = .ok ()) :
    (layer.tiled size).validate = .ok () ↔ ¬ Size.bound ∣ size.x.toNat * size.y.toNat := by
  obtain ⟨window, channels, -, depth, levels⟩ := validate_eq_ok_iff.mp accepted
  have partition : (layer.tiled size).validatePartition = .ok () ↔ ¬ size.area = 0 := by
    rw [validatePartition, tiled, Outcome.guard_eq_ok_iff]
    simp
  rw [← area_eq_zero_iff, ← partition, validate_eq_ok_iff]
  exact ⟨Accepted.partition, fun tiles => ⟨window, channels, tiles, depth, levels⟩⟩

/-- The check is right about a tile exactly if the tile has no pixels or its area is no multiple
of the bound. -/
theorem validate_tiled_right_iff (accepted : (layer.tiled other).validate = .ok ()) :
    ((layer.tiled size).validate = .ok () ↔ size.x ≠ 0 ∧ size.y ≠ 0) ↔
      (Size.bound ∣ size.x.toNat * size.y.toNat → size.x = 0 ∨ size.y = 0) := by
  have multiple : size.x = 0 ∨ size.y = 0 → Size.bound ∣ size.x.toNat * size.y.toNat := by
    rintro (none | none) <;> simp [none]
  rw [validate_tiled_iff accepted, ne_eq, ne_eq, ← not_or, not_iff_not]
  exact ⟨Iff.mp, fun empty => ⟨empty, multiple⟩⟩

/-- Tiles whose area is a word are accepted exactly if they are not empty. -/
theorem validate_tiled_iff_nonempty (accepted : (layer.tiled other).validate = .ok ())
    (word : size.x.toNat * size.y.toNat < Size.bound) :
    (layer.tiled size).validate = .ok () ↔ size.x ≠ 0 ∧ size.y ≠ 0 := by
  refine (validate_tiled_right_iff accepted).mpr fun divides => ?_
  have zero := Nat.eq_zero_of_dvd_of_lt divides word
  rw [Nat.mul_eq_zero] at zero
  exact zero.imp UInt64.toNat_inj.mp UInt64.toNat_inj.mp

end Layer

/-- What the checks of windows and tiles accept, for sizes of all 64 bits. A window whose stops
are signed words is accepted exactly between the limits; about any other one the check is wrong
exactly if it accepts it. An accepted window has an opposite corner exactly if its stops are
signed words, and so has the window of an accepted layer. Tiles are accepted exactly if their
area is no multiple of the bound. If it is below the bound, they are accepted exactly if neither
side is zero; about larger tiles the check is right as long as their area is no multiple. -/
theorem accepted_geometry (rectangle : Rectangle) (layer : Layer) (other size : Pair UInt64) :
    (rectangle.validate none = .ok () ↔
      Rectangle.AxisAccepted rectangle.position.x rectangle.size.x ∧
        Rectangle.AxisAccepted rectangle.position.y rectangle.size.y) ∧
    (rectangle.StopsFit → (rectangle.validate none = .ok () ↔ rectangle.BetweenLimits)) ∧
    ((rectangle.validate none = .ok () ↔ rectangle.BetweenLimits) ↔
      (rectangle.validate none = .ok () → rectangle.StopsFit)) ∧
    (rectangle.validate none = .ok () →
      ((∃ corner, rectangle.opposite = .ok corner) ↔ rectangle.StopsFit)) ∧
    (layer.validate = .ok () →
      ((∃ corner, layer.window.opposite = .ok corner) ↔ layer.window.StopsFit)) ∧
    ((layer.tiled other).validate = .ok () →
      ((layer.tiled size).validate = .ok () ↔ ¬ Size.bound ∣ size.x.toNat * size.y.toNat) ∧
      (size.x.toNat * size.y.toNat < Size.bound →
        ((layer.tiled size).validate = .ok () ↔ size.x ≠ 0 ∧ size.y ≠ 0)) ∧
      (((layer.tiled size).validate = .ok () ↔ size.x ≠ 0 ∧ size.y ≠ 0) ↔
        (Size.bound ∣ size.x.toNat * size.y.toNat → size.x = 0 ∨ size.y = 0))) := by
  refine ⟨Rectangle.validate_none_iff, Rectangle.validate_iff_betweenLimits,
    Rectangle.validate_right_iff, Rectangle.exists_opposite_iff, ?_, ?_⟩
  · intro accepted
    exact Rectangle.exists_opposite_iff (Layer.validate_eq_ok_iff.mp accepted).window
  · intro accepted
    exact ⟨Layer.validate_tiled_iff accepted, Layer.validate_tiled_iff_nonempty accepted,
      Layer.validate_tiled_right_iff accepted⟩

/-- A flat layer of one channel, sixteen pixels wide and high. -/
def squareLayer : Layer where
  channels := [.full "Y" .half]
  method := .zipLine
  window := ⟨⟨-5, 3⟩, ⟨16, 16⟩⟩
  partition := .scanLines
  deep := false
  zstdLevel := none

/-- The window of this layer is accepted between the limits, and has an opposite corner. With
tiles of four by four pixels the layer is accepted, and without pixels it is not. -/
theorem accepted_geometry_square :
    squareLayer.window.BetweenLimits ∧ (∃ corner, squareLayer.window.opposite = .ok corner) ∧
      (squareLayer.tiled ⟨4, 4⟩).validate = .ok () ∧
        ¬ (squareLayer.tiled ⟨4, 0⟩).validate = .ok () := by
  have fits : squareLayer.window.StopsFit := ⟨by decide, by decide⟩
  obtain ⟨-, limits, -, -, corners, filled⟩ :=
    accepted_geometry squareLayer.window squareLayer ⟨1, 1⟩ ⟨4, 4⟩
  obtain ⟨-, -, -, -, -, empty⟩ := accepted_geometry squareLayer.window squareLayer ⟨1, 1⟩ ⟨4, 0⟩
  refine ⟨(limits fits).mp rfl, (corners rfl).mpr fits, ?_, ?_⟩
  · exact ((filled rfl).2.1 (by decide)).mpr ⟨by decide, by decide⟩
  · exact mt ((empty rfl).2.1 (by decide)).mp (by decide)

/-- A width of one less than the bound counts as negative, so a window of this width is accepted
far outside the limits, and it has no opposite corner. Tiles of two to the power of 32 columns
and rows are refused as empty. -/
theorem accepted_geometry_wraps :
    let wide : Rectangle := ⟨⟨0, 0⟩, ⟨18446744073709551615, 1⟩⟩
    let large : Pair UInt64 := ⟨4294967296, 4294967296⟩
    wide.validate none = .ok () ∧ ¬ wide.BetweenLimits ∧
      wide.opposite = .error (.invalid .coordinateX) ∧
      (squareLayer.tiled ⟨1, 1⟩).validate = .ok () ∧ (large.x ≠ 0 ∧ large.y ≠ 0) ∧
      (squareLayer.tiled large).validate = .error (.configuration .emptyTile) :=
  ⟨rfl, fun limits => absurd limits.right (by decide), rfl, rfl, by decide, rfl⟩

end PixelBlocks

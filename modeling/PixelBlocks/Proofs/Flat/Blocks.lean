import PixelBlocks.Proofs.Corruption
import PixelBlocks.Proofs.Flat.Places

/-!
# Blocks of a layer

Which rectangles are blocks of a layer is said here in integers: full rows of the window that
start a multiple of the block height behind its first row, and tiles in the window that are not
larger than its largest block. The instances of the layer accept exactly the places of blocks,
and find every other place invalid. The window contains all blocks, so their samples can be
counted.
-/

namespace PixelBlocks

open FlatCompressor Outcome

namespace Rectangle

/-- Sizes and corners that are no 32-bit numbers are invalid. -/
theorem invalidAtWorst_opposite (rectangle : Rectangle) : InvalidAtWorst rectangle.opposite := by
  apply InvalidAtWorst.bind
  · exact .guard fun _ => .guard fun _ => invalidAtWorst_ok _
  · intro size _
    split <;> simp

/-- So are rectangles that leave others. -/
theorem invalidAtWorst_contains (outer inner : Rectangle) :
    InvalidAtWorst (outer.contains inner) :=
  outer.invalidAtWorst_opposite.bind fun _ _ => inner.invalidAtWorst_opposite.bind fun _ _ =>
    invalidAtWorst_ok _

/-- So are rectangles that are too large or out of bounds. -/
theorem invalidAtWorst_validate (rectangle : Rectangle) (largest : Option (Pair UInt64)) :
    InvalidAtWorst (rectangle.validate largest) := by
  refine .guard fun _ => ?_
  split <;> simp

end Rectangle

namespace Layer

/-- A block of scan lines at a row: full rows of the window, from a row on that lies a multiple of
the block height behind the first, down to the next such row or to the end of the window. -/
@[mk_iff] structure IsRowBlock (layer : Layer) (row : Int32) (bounds : Rectangle) : Prop where
  behind : layer.window.position.y.toInt ≤ row.toInt
  before : row.toInt < layer.window.position.y.toInt + layer.window.size.y.toNat
  aligned : (row.toInt - layer.window.position.y.toInt) % layer.method.scanLines = 0
  left : bounds.position.x = layer.window.position.x
  top : bounds.position.y = row
  width : bounds.size.x = layer.window.size.x
  height : bounds.size.y.toNat =
    min (layer.window.position.y.toInt + layer.window.size.y.toNat - row.toInt).toNat
      layer.method.scanLines

/-- A tile: a rectangle within the window that is on no axis larger than the largest block. -/
@[mk_iff] structure IsTile (layer : Layer) (tile : Rectangle) : Prop where
  inside : tile.Within layer.window
  narrow : tile.size.x.toNat ≤ layer.largestBlock.x.toNat
  short : tile.size.y.toNat ≤ layer.largestBlock.y.toNat

/-- The layer has a block at a place, with the given rectangle. -/
def HasBlock (layer : Layer) : Place → Rectangle → Prop
  | .scanLines row, bounds => layer.IsRowBlock row bounds
  | .tile tile, bounds => bounds = tile ∧ layer.IsTile tile

instance (layer : Layer) (row : Int32) (bounds : Rectangle) :
    Decidable (layer.IsRowBlock row bounds) :=
  decidable_of_iff' _ (isRowBlock_iff layer row bounds)

instance (layer : Layer) (tile : Rectangle) : Decidable (layer.IsTile tile) :=
  decidable_of_iff' _ (isTile_iff layer tile)

instance (layer : Layer) : (place : Place) → (bounds : Rectangle) →
    Decidable (layer.HasBlock place bounds)
  | .scanLines row, bounds => inferInstanceAs (Decidable (layer.IsRowBlock row bounds))
  | .tile tile, bounds => inferInstanceAs (Decidable (bounds = tile ∧ layer.IsTile tile))

variable {layer : Layer} {row : Int32} {place : Place} {bounds : Rectangle}

/-- Blocks of scan lines lie within the window. -/
theorem IsRowBlock.within (block : layer.IsRowBlock row bounds) : bounds.Within layer.window := by
  obtain ⟨behind, before, -, left, top, width, height⟩ := block
  constructor
  · exact Int.le_of_eq (by rw [left])
  · rwa [top]
  · exact Int.le_of_eq (by rw [left, width])
  · rw [top, height]
    omega

/-- So do all blocks. -/
theorem HasBlock.within (block : layer.HasBlock place bounds) : bounds.Within layer.window := by
  cases place with
  | scanLines row => exact block.within
  | tile tile =>
    obtain ⟨rfl, isTile⟩ := block
    exact isTile.inside

end Layer

namespace FlatCompressor

variable {layer : Layer} {compressor : FlatCompressor} {place : Place} {row : Int32}
variable {bounds tile : Rectangle} {corner : Pair Int32}

/-- An instance finds a block at a row exactly if the layer has one there. -/
theorem Serves.blockAt_eq_ok_iff_isRowBlock (serves : Serves layer compressor)
    (found : layer.window.opposite = .ok corner) :
    compressor.blockAt row = .ok bounds ↔ layer.IsRowBlock row bounds := by
  have lines := serves.scanLines_bounds
  obtain ⟨-, -, below⟩ := Rectangle.opposite_eq_ok_iff.mp found
  rw [← serves.window] at found
  rw [blockAt_eq_ok_iff lines found, serves.window, serves.scanLines, below]
  rw [serves.scanLines] at lines
  have fits : min (layer.window.position.y.toInt + layer.window.size.y.toNat - row.toInt).toNat
      layer.method.scanLines < UInt64.size :=
    Nat.lt_of_le_of_lt (Nat.min_le_right _ _) (Nat.lt_trans lines.2 (by decide))
  constructor
  · rintro ⟨⟨behind, before⟩, aligned, rfl⟩
    exact ⟨behind, before, aligned, rfl, rfl, rfl, UInt64.toNat_ofNat_of_lt' fits⟩
  · rintro ⟨behind, before, aligned, left, top, width, height⟩
    refine ⟨⟨behind, before⟩, aligned, ?_⟩
    rw [← left, ← width, ← height, UInt64.ofNat_toNat, ← top]

/-- An instance accepts a tile exactly if it is one of the layer. -/
theorem Serves.validateTile_eq_ok_iff_isTile (serves : Serves layer compressor)
    (found : layer.window.opposite = .ok corner) :
    compressor.validateTile tile = .ok () ↔ layer.IsTile tile := by
  rw [validateTile_eq_ok_iff, serves.window, serves.largest,
    Rectangle.contains_eq_ok_true_iff_within]
  constructor
  · rintro ⟨accepted, -, inside⟩
    obtain ⟨narrow, short⟩ := (Rectangle.validate_eq_ok_iff_of_within serves.accepted.window found
      inside layer.largestBlock).mp accepted
    exact ⟨inside, narrow, short⟩
  · rintro ⟨inside, narrow, short⟩
    exact ⟨(Rectangle.validate_eq_ok_iff_of_within serves.accepted.window found inside _).mpr
      ⟨narrow, short⟩, ⟨corner, found⟩, inside⟩

/-- An instance accepts a place exactly if the layer has a block there. -/
theorem Serves.boundsOf_eq_ok_iff (serves : Serves layer compressor)
    (found : layer.window.opposite = .ok corner) :
    compressor.boundsOf place = .ok bounds ↔ layer.HasBlock place bounds := by
  cases place with
  | scanLines row => exact serves.blockAt_eq_ok_iff_isRowBlock found
  | tile tile =>
    simp only [boundsOf, bind_eq_ok_iff, serves.validateTile_eq_ok_iff_isTile found]
    constructor
    · rintro ⟨⟨⟩, isTile, ⟨⟩⟩
      exact ⟨rfl, isTile⟩
    · rintro ⟨rfl, isTile⟩
      exact ⟨(), isTile, rfl⟩

/-- Where an instance accepts a place, the window has an opposite corner. -/
theorem exists_opposite_of_boundsOf (placed : compressor.boundsOf place = .ok bounds) :
    ∃ corner, compressor.window.opposite = .ok corner := by
  cases place with
  | scanLines row =>
    obtain ⟨corner, found, -⟩ := bind_eq_ok_iff.mp placed
    exact ⟨corner, found⟩
  | tile tile =>
    obtain ⟨⟨⟩, accepted, -⟩ := bind_eq_ok_iff.mp placed
    exact (Rectangle.contains_eq_ok_true_iff_within.mp (validateTile_eq_ok_iff.mp accepted).2).1

/-- The rectangle of every accepted place is that of a block, and is contained in the window. -/
theorem Serves.hasBlock_of_boundsOf (serves : Serves layer compressor)
    (placed : compressor.boundsOf place = .ok bounds) :
    layer.HasBlock place bounds ∧ layer.window.contains bounds = .ok true := by
  obtain ⟨corner, found⟩ := exists_opposite_of_boundsOf placed
  rw [serves.window] at found
  have block := (serves.boundsOf_eq_ok_iff found).mp placed
  exact ⟨block, Rectangle.contains_eq_ok_true_iff_within.mpr ⟨⟨corner, found⟩, block.within⟩⟩

/-- The channels of a layer leave room in the rectangle of every place. -/
theorem Serves.roomFrom (serves : Serves layer compressor)
    (placed : compressor.boundsOf place = .ok bounds) :
    compressor.channels.RoomFrom bounds.position.y.toInt := by
  rw [serves.channels]
  exact (serves.accepted.roomFrom_of_contains (serves.hasBlock_of_boundsOf placed).2).1

/-- A place that is no block is invalid. -/
theorem invalidAtWorst_boundsOf (compressor : FlatCompressor) (place : Place) :
    InvalidAtWorst (compressor.boundsOf place) := by
  cases place with
  | scanLines row =>
    refine compressor.window.invalidAtWorst_opposite.bind fun opposite _ => ?_
    exact .guard fun _ => .guard fun _ => invalidAtWorst_ok _
  | tile bounds =>
    refine InvalidAtWorst.bind ?_ fun _ _ => invalidAtWorst_ok bounds
    refine (bounds.invalidAtWorst_validate _).bind fun _ _ => ?_
    refine (compressor.window.invalidAtWorst_contains bounds).bind fun inside _ => ?_
    cases inside <;> simp

end FlatCompressor

end PixelBlocks

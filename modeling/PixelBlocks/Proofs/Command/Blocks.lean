import PixelBlocks.Command.Files
import PixelBlocks.Proofs.Flat.Places

/-!
# Blocks of scan lines

The compressor finds the rectangle of a block from its first row, in signed words, and
refuses all other rows. The command line counts blocks instead, in sizes, and asks for one
first row after the other. Both come to the same rectangles, and these follow each other
from the first row of the window to its last. No word is left on the way, because the
window of an accepted layer stays away from the ends of the words.
-/

namespace PixelBlocks

/-- The rows of the window stay as far from the ends of the words as accepted ones. -/
structure Layer.RowsFit (layer : Layer) : Prop where
  start : -0x3fffffff < layer.window.position.y.toInt
  stop : layer.window.position.y.toInt + layer.window.size.y.toNat < 0x3fffffff

/-- The rows of the window of an accepted layer stay away from the ends of the words, if
their number is a signed 32-bit number. -/
theorem Layer.Accepted.rowsFit {layer : Layer} (accepted : layer.Accepted)
    (short : layer.window.size.y.toNat < 0x80000000) : layer.RowsFit := by
  have down := (Rectangle.validate_eq_ok_iff.mp accepted.window).2.2
  constructor
  · exact Rectangle.lt_start_of_axis down
  · exact Rectangle.stop_lt_of_axis short down

namespace Command

/-- Pieces of equal length, the last of which is cut off at the end, make up a range. -/
theorem flatMap_pieces (length piece count : Nat) :
    ((List.range count).flatMap fun index =>
        (List.range (min (length - index * piece) piece)).map (index * piece + ·)) =
      List.range (min length (count * piece)) := by
  induction count with
  | zero => simp
  | succ count inductionHypothesis =>
    rw [List.range_succ, List.flatMap_append, inductionHypothesis, List.flatMap_singleton,
      Nat.succ_mul]
    by_cases behind : length ≤ count * piece
    · have nothing : min (length - count * piece) piece = 0 := by omega
      have whole : min length (count * piece + piece) = min length (count * piece) := by omega
      rw [nothing, whole, List.range_zero, List.map_nil, List.append_nil]
    · have before : min length (count * piece) = count * piece := by omega
      have whole : min length (count * piece + piece) =
          count * piece + min (length - count * piece) piece := by omega
      rw [before, whole, List.range_add]

/-- The rectangles of all blocks. -/
def blocks (layer : Layer) : List Rectangle := (blockOrigins layer).map (blockBounds layer)

section Origins

variable {layer : Layer} {index : Nat} {row : Int32}

/-- Blocks are counted by rounding the quotient of the heights upwards. -/
theorem blockCount_eq (fits : layer.RowsFit) :
    blockCount layer =
      (layer.window.size.y.toNat + layer.method.scanLines - 1) / layer.method.scanLines := by
  obtain ⟨positive, few⟩ := layer.method.scanLines_bounds
  obtain ⟨start, stop⟩ := fits
  have lines : (UInt64.ofNat layer.method.scanLines).toNat = layer.method.scanLines := by
    rw [UInt64.toNat_ofNat']
    omega
  have one : (1 : UInt64).toNat = 1 := rfl
  have raised : (layer.window.size.y + UInt64.ofNat layer.method.scanLines - 1).toNat =
      layer.window.size.y.toNat + layer.method.scanLines - 1 := by
    rw [UInt64.toNat_sub, UInt64.toNat_add, lines, one]
    omega
  rw [blockCount, UInt64.toNat_div, raised, lines]

/-- There is a block with a number exactly if the rows of the blocks before it do not fill
the window. -/
theorem lt_blockCount_iff (fits : layer.RowsFit) :
    index < blockCount layer ↔ index * layer.method.scanLines < layer.window.size.y.toNat := by
  have positive := layer.method.scanLines_bounds.1
  rw [blockCount_eq fits, Nat.lt_iff_add_one_le, Nat.le_div_iff_mul_le positive, Nat.succ_mul]
  omega

/-- The numbers of blocks are those whose blocks before do not fill the window. -/
theorem mem_range_blockCount_iff (fits : layer.RowsFit) :
    index ∈ List.range (blockCount layer) ↔
      index * layer.method.scanLines < layer.window.size.y.toNat :=
  List.mem_range.trans (lt_blockCount_iff fits)

/-- The first row of a block lies as many rows behind the start of the window as the blocks
before it have. -/
theorem toInt_blockOrigin (fits : layer.RowsFit)
    (inside : index * layer.method.scanLines < layer.window.size.y.toNat) :
    (blockOrigin layer index).toInt =
      layer.window.position.y.toInt + (index * layer.method.scanLines : Nat) := by
  obtain ⟨start, stop⟩ := fits
  have offset : (Int32.ofNat (index * layer.method.scanLines)).toInt =
      (index * layer.method.scanLines : Nat) := Int32.toInt_ofNat_of_lt (by omega)
  rw [blockOrigin, Int32.toInt_add, offset, Int.bmod_eq_of_le (by omega) (by omega)]

/-- The first rows of blocks are those rows of the window that lie a multiple of the block
height behind its start. -/
theorem mem_blockOrigins_iff (fits : layer.RowsFit) :
    row ∈ blockOrigins layer ↔
      ∃ index : Nat, row.toInt =
          layer.window.position.y.toInt + (index * layer.method.scanLines : Nat) ∧
        row.toInt < layer.window.position.y.toInt + layer.window.size.y.toNat := by
  simp only [blockOrigins, List.mem_map, mem_range_blockCount_iff fits]
  constructor
  · rintro ⟨index, inside, rfl⟩
    have here := toInt_blockOrigin fits inside
    exact ⟨index, here, by omega⟩
  · rintro ⟨index, here, before⟩
    have inside : index * layer.method.scanLines < layer.window.size.y.toNat := by omega
    refine ⟨index, inside, ?_⟩
    apply Int32.toInt_inj.mp
    rw [toInt_blockOrigin fits inside, here]

/-- The rectangle of a block covers the rows from its first to the next block, or to the end
of the window. -/
theorem blockBounds_blockOrigin (fits : layer.RowsFit)
    (inside : index * layer.method.scanLines < layer.window.size.y.toNat) :
    blockBounds layer (blockOrigin layer index) =
      ⟨⟨layer.window.position.x, blockOrigin layer index⟩, ⟨layer.window.size.x,
        UInt64.ofNat (min (layer.window.size.y.toNat - index * layer.method.scanLines)
          layer.method.scanLines)⟩⟩ := by
  have here := toInt_blockOrigin fits inside
  obtain ⟨start, stop⟩ := fits
  have offset : (blockOrigin layer index - layer.window.position.y).toInt.toNat =
      index * layer.method.scanLines := by
    rw [toInt_sub_of_le (by omega) (by omega)]
    omega
  simp only [blockBounds, offset]

/-- The height of a block is the number of its rows. -/
theorem toNat_height (layer : Layer) (rows : Nat) :
    (UInt64.ofNat (min rows layer.method.scanLines)).toNat = min rows layer.method.scanLines := by
  have few := layer.method.scanLines_bounds.2
  rw [UInt64.toNat_ofNat']
  omega

/-- A block has as many rows as are left in the window, but not more than the block height. -/
theorem rows_blockBounds (fits : layer.RowsFit)
    (inside : index * layer.method.scanLines < layer.window.size.y.toNat) :
    (blockBounds layer (blockOrigin layer index)).rows =
      ((List.range (min (layer.window.size.y.toNat - index * layer.method.scanLines)
          layer.method.scanLines)).map (index * layer.method.scanLines + ·)).map
        fun offset : Nat => layer.window.position.y.toInt + offset := by
  rw [blockBounds_blockOrigin fits inside, Rectangle.rows, toNat_height,
    toInt_blockOrigin fits inside, List.map_map]
  refine List.map_congr_left fun row _ => ?_
  simp only [Function.comp_apply]
  omega

/-- The rows of all blocks, one block after the other, are the rows of the window. -/
theorem flatMap_rows_blocks (fits : layer.RowsFit) :
    (blocks layer).flatMap Rectangle.rows = layer.window.rows := by
  have full : layer.window.size.y.toNat ≤ blockCount layer * layer.method.scanLines :=
    Nat.not_lt.mp (mt (lt_blockCount_iff fits).mpr (Nat.lt_irrefl _))
  have each : ∀ index ∈ List.range (blockCount layer),
      (blockBounds layer (blockOrigin layer index)).rows = _ := fun index member =>
    rows_blockBounds fits ((mem_range_blockCount_iff fits).mp member)
  rw [blocks, blockOrigins, List.map_map, List.flatMap_map, Rectangle.rows]
  simp only [Function.comp_apply]
  rw [List.flatMap_congr each, ← List.map_flatMap, flatMap_pieces, Nat.min_eq_left full]

/-- A block ends at the latest where a later one starts. -/
theorem pairwise_blocks (fits : layer.RowsFit) :
    (blocks layer).Pairwise fun above below : Rectangle =>
      above.position.y.toInt + above.size.y.toNat ≤ below.position.y.toInt := by
  rw [blocks, blockOrigins, List.map_map, List.pairwise_map]
  refine List.pairwise_lt_range.imp_of_mem ?_
  intro upper lower first second before
  have upperInside := (mem_range_blockCount_iff fits).mp first
  have lowerInside := (mem_range_blockCount_iff fits).mp second
  have apart : (upper + 1) * layer.method.scanLines ≤ lower * layer.method.scanLines :=
    Nat.mul_le_mul_right _ before
  rw [Nat.succ_mul] at apart
  simp only [Function.comp_apply, blockBounds_blockOrigin fits upperInside,
    blockBounds_blockOrigin fits lowerInside, toNat_height, toInt_blockOrigin fits upperInside,
    toInt_blockOrigin fits lowerInside]
  omega

/-- Each block is the rectangle of a number. -/
theorem exists_of_mem_blocks (fits : layer.RowsFit) {block : Rectangle}
    (member : block ∈ blocks layer) :
    ∃ index, index * layer.method.scanLines < layer.window.size.y.toNat ∧
      block = blockBounds layer (blockOrigin layer index) := by
  obtain ⟨row, listed, rfl⟩ := List.mem_map.mp member
  obtain ⟨index, counted, rfl⟩ := List.mem_map.mp listed
  exact ⟨index, (mem_range_blockCount_iff fits).mp counted, rfl⟩

/-- A block starts at the left edge of the window, is as wide as the window, and has a row. -/
theorem edges_of_mem_blocks (fits : layer.RowsFit) {block : Rectangle}
    (member : block ∈ blocks layer) :
    block.position.x = layer.window.position.x ∧ block.size.x = layer.window.size.x ∧
      0 < block.size.y.toNat := by
  obtain ⟨index, inside, rfl⟩ := exists_of_mem_blocks fits member
  have positive := layer.method.scanLines_bounds.1
  rw [blockBounds_blockOrigin fits inside]
  refine ⟨rfl, rfl, ?_⟩
  rw [toNat_height]
  omega

/-- A block lies below the start of the window, and has an opposite corner if the window has
one. -/
theorem corner_of_mem_blocks (fits : layer.RowsFit) {corner : Pair Int32}
    (found : layer.window.opposite = .ok corner) {block : Rectangle}
    (member : block ∈ blocks layer) :
    layer.window.position.y.toInt ≤ block.position.y.toInt ∧
      ∃ blockCorner, block.opposite = .ok blockCorner := by
  obtain ⟨index, inside, rfl⟩ := exists_of_mem_blocks fits member
  obtain ⟨⟨narrow, -⟩, right, -⟩ := Rectangle.opposite_eq_ok_iff.mp found
  have few := layer.method.scanLines_bounds.2
  have here := toInt_blockOrigin fits inside
  have height := toNat_height layer
    (layer.window.size.y.toNat - index * layer.method.scanLines)
  obtain ⟨start, stop⟩ := fits
  rw [blockBounds_blockOrigin ⟨start, stop⟩ inside]
  constructor
  · dsimp only
    omega
  · refine ⟨⟨corner.x, Int32.ofInt ((blockOrigin layer index).toInt +
      (min (layer.window.size.y.toNat - index * layer.method.scanLines)
        layer.method.scanLines : Nat))⟩, ?_⟩
    refine Rectangle.opposite_eq_ok_iff.mpr ⟨⟨narrow, ?_⟩, right, ?_⟩
    · dsimp only
      omega
    · rw [height]
      exact Int32.toInt_ofInt_of_le (by omega) (by omega)

section Compressor

open FlatCompressor

variable {compressor : FlatCompressor} {corner : Pair Int32}

/-- The compressor accepts exactly the first rows of the blocks. -/
theorem mem_blockOrigins_iff_blockAt (serves : Serves layer compressor) (fits : layer.RowsFit)
    (found : layer.window.opposite = .ok corner) :
    row ∈ blockOrigins layer ↔ ∃ bounds, compressor.blockAt row = .ok bounds := by
  have window := serves.window
  have positive := layer.method.scanLines_bounds.1
  have below := (Rectangle.opposite_eq_ok_iff.mp found).2.2
  rw [← window] at found
  simp only [mem_blockOrigins_iff fits, blockAt_eq_ok_iff serves.scanLines_bounds found, window,
    serves.scanLines]
  constructor
  · rintro ⟨index, here, before⟩
    refine ⟨_, ⟨by omega, by omega⟩, ?_, rfl⟩
    have distance : row.toInt - layer.window.position.y.toInt =
        (index * layer.method.scanLines : Nat) := by
      omega
    rw [distance, Int.natCast_mul, Int.mul_emod_left]
  · rintro ⟨bounds, ⟨behind, before⟩, aligned, -⟩
    obtain ⟨index, multiple⟩ := Int.dvd_of_emod_eq_zero aligned
    have ahead : 0 ≤ index := by
      by_contra negative
      have above : (layer.method.scanLines : Int) * index < 0 :=
        Int.mul_neg_of_pos_of_neg (by omega) (by omega)
      omega
    refine ⟨index.toNat, ?_, by omega⟩
    rw [Int.natCast_mul, Int.toNat_of_nonneg ahead, Int.mul_comm]
    omega

/-- The compressor and the command line come to the same rectangle. -/
theorem blockAt_eq_blockBounds (serves : Serves layer compressor) (fits : layer.RowsFit)
    (found : layer.window.opposite = .ok corner) (member : row ∈ blockOrigins layer) :
    compressor.blockAt row = .ok (blockBounds layer row) := by
  obtain ⟨bounds, placed⟩ := (mem_blockOrigins_iff_blockAt serves fits found).mp member
  obtain ⟨index, counted, rfl⟩ := List.mem_map.mp member
  have inside := (mem_range_blockCount_iff fits).mp counted
  have here := toInt_blockOrigin fits inside
  have below := (Rectangle.opposite_eq_ok_iff.mp found).2.2
  have distance : (corner.y.toInt - (blockOrigin layer index).toInt).toNat =
      layer.window.size.y.toNat - index * layer.method.scanLines := by
    omega
  rw [← serves.window] at found
  obtain ⟨-, -, rfl⟩ := (blockAt_eq_ok_iff serves.scanLines_bounds found).mp placed
  rw [placed, blockBounds_blockOrigin fits inside, distance, serves.window, serves.scanLines]

end Compressor

end Origins

end Command

namespace Checked

open Command

/-- How many blocks the window of a layer has, counted in steps that are checked. -/
def blockCount (layer : Layer) : Checked Nat := do
  let sum ← size (layer.window.size.y.toNat + layer.method.scanLines : Nat)
  let raised ← size (sum - 1)
  ratio raised layer.method.scanLines

/-- The first row of the block with a number, found in steps that are checked. -/
def blockOrigin (layer : Layer) (index : Nat) : Checked Int := do
  let rows ← size (index * layer.method.scanLines : Nat)
  let offset ← signed 32 rows
  signed 32 (layer.window.position.y.toInt + offset)

/-- The first rows of all blocks, found in steps that are checked. -/
def blockOrigins (layer : Layer) : Checked (List Int) := do
  let count ← blockCount layer
  (List.range count).mapM (blockOrigin layer)

/-- The rectangle of the block that starts at a row, found in steps that are checked. -/
def blockBounds (layer : Layer) (row : Int32) : Checked Rectangle := do
  let distance ← signed 32 (row.toInt - layer.window.position.y.toInt)
  let offset ← size distance
  let left ← size (layer.window.size.y.toNat - offset)
  return ⟨⟨layer.window.position.x, row⟩,
    ⟨layer.window.size.x, UInt64.ofNat (min left layer.method.scanLines)⟩⟩

/-- Cuts raw bytes into the blocks that start at the given rows, in steps that are checked,
and keeps what is left over. -/
def cutRaw (layer : Layer) : List Int32 → Bytes → Checked (List ScanLineBlock × Bytes)
  | [], raw => .ok ([], raw)
  | row :: rows, raw => do
    let bounds ← blockBounds layer row
    let length ← byteSize layer.channels bounds
    let (bytes, rest) ← cut length raw
    let (others, left) ← cutRaw layer rows rest
    return (⟨row, bytes⟩ :: others, left)

variable {layer : Layer} {row : Int32}

/-- Blocks are counted in steps that have results. -/
theorem blockCount_eq_ok (fits : layer.RowsFit) :
    blockCount layer = .ok (Command.blockCount layer) := by
  obtain ⟨positive, few⟩ := layer.method.scanLines_bounds
  have least := layer.window.position.y.le_toInt
  have short : layer.window.size.y.toNat < 0x80000000 := by
    obtain ⟨start, stop⟩ := fits
    omega
  have raised : ((layer.window.size.y.toNat + layer.method.scanLines : Nat) : Int) - 1 =
      (layer.window.size.y.toNat + layer.method.scanLines - 1 : Nat) := by
    omega
  rw [blockCount, size_word (by omega), Outcome.ok_bind, raised, size_word (by omega),
    Outcome.ok_bind, ratio_eq_ok positive, blockCount_eq fits]

/-- The first row of a block is found in steps that have results. -/
theorem blockOrigin_eq_ok (fits : layer.RowsFit) {index : Nat}
    (inside : index * layer.method.scanLines < layer.window.size.y.toNat) :
    blockOrigin layer index = .ok (Command.blockOrigin layer index).toInt := by
  have here := toInt_blockOrigin fits inside
  obtain ⟨start, stop⟩ := fits
  rw [blockOrigin, size_word (by omega), Outcome.ok_bind, signed_eq_ok (by omega) (by omega),
    Outcome.ok_bind, signed_eq_ok (by omega) (by omega), here]

/-- The first rows of all blocks are found in steps that have results. -/
theorem blockOrigins_eq_ok (fits : layer.RowsFit) :
    blockOrigins layer = .ok ((Command.blockOrigins layer).map Int32.toInt) := by
  rw [blockOrigins, blockCount_eq_ok fits, Outcome.ok_bind, Command.blockOrigins, List.map_map]
  refine Outcome.mapM_eq_ok_map fun index member => ?_
  exact blockOrigin_eq_ok fits ((mem_range_blockCount_iff fits).mp member)

/-- The rectangle of a block is found in steps that have results. -/
theorem blockBounds_eq_ok (fits : layer.RowsFit) (member : row ∈ Command.blockOrigins layer) :
    blockBounds layer row = .ok (Command.blockBounds layer row) := by
  obtain ⟨index, here, before⟩ := (mem_blockOrigins_iff fits).mp member
  obtain ⟨start, stop⟩ := fits
  have distance : row.toInt - layer.window.position.y.toInt =
      (index * layer.method.scanLines : Nat) := by
    omega
  have offset : (row - layer.window.position.y).toInt.toNat = index * layer.method.scanLines := by
    rw [toInt_sub_of_le (by omega) (by omega), distance, Int.toNat_natCast]
  have left : (layer.window.size.y.toNat : Int) - (index * layer.method.scanLines : Nat) =
      (layer.window.size.y.toNat - index * layer.method.scanLines : Nat) := by
    omega
  rw [blockBounds, distance, signed_eq_ok (by omega) (by omega), Outcome.ok_bind,
    size_word (by omega), Outcome.ok_bind, left, size_word (by omega), Outcome.ok_bind,
    Command.blockBounds, offset]
  rfl

end Checked

end PixelBlocks

import PixelBlocks.Proofs.Command.Blocks
import PixelBlocks.Proofs.Flat.RoundTrip
import PixelBlocks.Proofs.Layer.ByteSize

/-!
# Blocks of scan lines tile the window

The rows of the blocks, one block after the other, are the rows of the window. The bytes of
a row depend on its number alone, also where vertical sampling skips rows. So the sizes of
the blocks add up to the size of the window, and raw bytes of that size are cut up without
anything left over.
-/

namespace PixelBlocks

namespace Command

open FlatCompressor

/-- Results of the library stay results. -/
@[simp] theorem Result.ofOutcome_ok {α : Type} (result : α) :
    Result.ofOutcome (.ok result : Outcome α) = .ok result := rfl

/-- Raw bytes for blocks that start at the given rows are cut within the bytes, and what is
behind them is left over. -/
theorem exists_cutRaw {layer : Layer} {rows : List Int32} {sizes : List Nat}
    (checked : ∀ row ∈ rows, Checked.blockBounds layer row = .ok (blockBounds layer row))
    (roomy : ∀ row ∈ rows, layer.channels.RoomFrom row.toInt)
    (sized : List.Forall₂ (fun row size =>
      layer.channels.byteSize (blockBounds layer row) = .ok size) rows sizes)
    {raw : Bytes} (enough : sizes.sum ≤ raw.length) :
    ∃ pieces, Checked.cutRaw layer rows raw = .ok (pieces, raw.drop sizes.sum) ∧
      cutRaw layer rows raw = .ok pieces ∧
      List.Forall₂ (fun row (piece : ScanLineBlock) => piece.row = row ∧
        layer.channels.byteSize (blockBounds layer row) = .ok piece.bytes.length) rows pieces ∧
      pieces.flatMap ScanLineBlock.bytes = raw.take sizes.sum := by
  induction sized generalizing raw with
  | nil => exact ⟨[], rfl, rfl, .nil, rfl⟩
  | @cons row size rows sizes here later inductionHypothesis =>
    obtain ⟨bounds, checked⟩ := List.forall_mem_cons.mp checked
    obtain ⟨room, roomy⟩ := List.forall_mem_cons.mp roomy
    rw [List.sum_cons] at enough
    have rest : sizes.sum ≤ (raw.drop size).length := by
      rw [List.length_drop]
      omega
    have length : (raw.take size).length = size := by
      rw [List.length_take]
      omega
    obtain ⟨pieces, cut, found, matched, whole⟩ := inductionHypothesis checked roomy rest
    refine ⟨⟨row, raw.take size⟩ :: pieces, ?_, ?_, ?_, ?_⟩
    · rw [Checked.cutRaw, bounds, Outcome.ok_bind, Checked.byteSize_eq_ofOutcome room, here,
        Checked.ofOutcome_ok, Outcome.ok_bind, Checked.cut_eq_ok (by omega), Outcome.ok_bind]
      dsimp only
      rw [cut, Outcome.ok_bind, List.drop_drop, List.sum_cons]
      rfl
    · rw [cutRaw, here, Result.ofOutcome_ok, Outcome.ok_bind, found]
      rfl
    · exact .cons ⟨rfl, by rw [length, here]⟩ matched
    · rw [List.flatMap_cons, whole, List.sum_cons, List.take_add]

/-- Blocks of scan lines tile the window of a layer, for a compressor and for the command
line. -/
structure Tiling (layer : Layer) (compressor : FlatCompressor) : Prop where
  /-- The compressor accepts the rows of the window that lie a multiple of the block height
  behind its start. -/
  accepted : ∀ row : Int32, (∃ bounds, compressor.blockAt row = .ok bounds) ↔
    ∃ index : Nat,
      row.toInt = layer.window.position.y.toInt + (index * layer.method.scanLines : Nat) ∧
      row.toInt < layer.window.position.y.toInt + layer.window.size.y.toNat
  /-- The command line asks for the same rows, one after the other. -/
  origins : ∃ count : Nat,
    (∀ index : Nat, index < count ↔
      layer.window.position.y.toInt + (index * layer.method.scanLines : Nat) <
        layer.window.position.y.toInt + layer.window.size.y.toNat) ∧
    (blockOrigins layer).map Int32.toInt = (List.range count).map fun index : Nat =>
      layer.window.position.y.toInt + (index * layer.method.scanLines : Nat)
  /-- Both come to the same rectangles. -/
  agreed : ∀ row ∈ blockOrigins layer, compressor.blockAt row = .ok (blockBounds layer row)
  /-- The compressor leaves no word, whatever the row is. -/
  compressorChecked : ∀ row,
    Checked.blockAt compressor row = Checked.ofOutcome (compressor.blockAt row)
  /-- Neither does the command line. -/
  commandChecked :
    Checked.blockOrigins layer = .ok ((blockOrigins layer).map Int32.toInt) ∧
    ∀ row ∈ blockOrigins layer, Checked.blockBounds layer row = .ok (blockBounds layer row)
  /-- Each block is a strip of the window. -/
  strips : ∀ block ∈ blocks layer, block.position.x = layer.window.position.x ∧
    block.size.x = layer.window.size.x ∧ 0 < block.size.y.toNat
  /-- Blocks lie below each other. -/
  increasing : (blocks layer).Pairwise fun above below : Rectangle =>
    above.position.y.toInt + above.size.y.toNat ≤ below.position.y.toInt
  /-- Their rows are the rows of the window, each of them once. -/
  rows : (blocks layer).flatMap Rectangle.rows = layer.window.rows
  /-- Their sizes add up to the size of the window. -/
  sizes : ∀ total, layer.channels.byteSize layer.window = .ok total →
    ∃ sizes, (blocks layer).mapM layer.channels.byteSize = .ok sizes ∧ sizes.sum = total
  /-- Raw bytes of the size of the window are cut into pieces of the sizes of the blocks, with
  nothing left over. -/
  pieces : ∀ raw : Bytes, layer.channels.byteSize layer.window = .ok raw.length →
    ∃ pieces, Checked.cutRaw layer (blockOrigins layer) raw = .ok (pieces, []) ∧
      cutRaw layer (blockOrigins layer) raw = .ok pieces ∧
      List.Forall₂ (fun row (piece : ScanLineBlock) => piece.row = row ∧
        layer.channels.byteSize (blockBounds layer row) = .ok piece.bytes.length)
        (blockOrigins layer) pieces ∧
      pieces.flatMap ScanLineBlock.bytes = raw

section Sizes

variable {layer : Layer} {corner : Pair Int32} {total : Nat}

/-- The blocks have sizes that add up to the size of the window. -/
theorem exists_sizes (accepted : layer.Accepted) (fits : layer.RowsFit)
    (countable : layer.channels.Countable) (found : layer.window.opposite = .ok corner)
    (sized : layer.channels.byteSize layer.window = .ok total) :
    ∃ sizes, (blocks layer).mapM layer.channels.byteSize = .ok sizes ∧ sizes.sum = total := by
  refine ChannelList.exists_mapM_byteSize accepted.roomFrom countable found ?_
    (flatMap_rows_blocks fits) sized
  intro block member
  obtain ⟨below, cornerFound⟩ := corner_of_mem_blocks fits found member
  exact ⟨below, (edges_of_mem_blocks fits member).2.1, cornerFound⟩

/-- Raw bytes of the size of the window are cut into the blocks without anything left over. -/
theorem exists_cutRaw_window (accepted : layer.Accepted) (fits : layer.RowsFit)
    (countable : layer.channels.Countable) (found : layer.window.opposite = .ok corner)
    {raw : Bytes} (sized : layer.channels.byteSize layer.window = .ok raw.length) :
    ∃ pieces, Checked.cutRaw layer (blockOrigins layer) raw = .ok (pieces, []) ∧
      cutRaw layer (blockOrigins layer) raw = .ok pieces ∧
      List.Forall₂ (fun row (piece : ScanLineBlock) => piece.row = row ∧
        layer.channels.byteSize (blockBounds layer row) = .ok piece.bytes.length)
        (blockOrigins layer) pieces ∧
      pieces.flatMap ScanLineBlock.bytes = raw := by
  obtain ⟨sizes, measured, total⟩ := exists_sizes accepted fits countable found sized
  rw [blocks, Outcome.mapM_eq_ok_iff, List.forall₂_map_left_iff] at measured
  have roomy : ∀ row ∈ blockOrigins layer, layer.channels.RoomFrom row.toInt := by
    intro row member
    obtain ⟨index, here, -⟩ := (mem_blockOrigins_iff fits).mp member
    exact accepted.roomFrom.mono (by omega)
  obtain ⟨pieces, checked, cut, matched, whole⟩ := exists_cutRaw
    (fun row member => Checked.blockBounds_eq_ok fits member) roomy measured
    (Nat.le_of_eq total)
  rw [total, List.drop_length] at checked
  rw [total, List.take_length] at whole
  exact ⟨pieces, checked, cut, matched, whole⟩

end Sizes

/-- Whatever the defaults were when a compressor was made for a layer, the blocks of scan
lines tile the window of the layer, if its size and the vertical sampling factors are signed
32-bit numbers. -/
theorem blocks_tile_window {layer : Layer} {compressor : FlatCompressor}
    (made : MadeFor layer compressor) (narrow : layer.window.size.x.toNat < 0x80000000)
    (short : layer.window.size.y.toNat < 0x80000000) (countable : layer.channels.Countable) :
    Tiling layer compressor := by
  have serves := made.serves
  have accepted := serves.accepted
  have fits := accepted.rowsFit short
  obtain ⟨corner, found⟩ := Rectangle.exists_opposite accepted.window narrow short
  constructor
  case accepted =>
    intro row
    rw [← mem_blockOrigins_iff_blockAt serves fits found, mem_blockOrigins_iff fits]
  case origins =>
    refine ⟨blockCount layer, ?_, ?_⟩
    · intro index
      rw [lt_blockCount_iff fits]
      omega
    · rw [blockOrigins, List.map_map]
      refine List.map_congr_left fun index member => ?_
      exact toInt_blockOrigin fits ((mem_range_blockCount_iff fits).mp member)
  case agreed => exact fun row member => blockAt_eq_blockBounds serves fits found member
  case compressorChecked => exact Checked.blockAt_eq_ofOutcome serves.scanLines_bounds
  case commandChecked =>
    exact ⟨Checked.blockOrigins_eq_ok fits, fun row => Checked.blockBounds_eq_ok fits⟩
  case strips => exact fun block => edges_of_mem_blocks fits
  case increasing => exact pairwise_blocks fits
  case rows => exact flatMap_rows_blocks fits
  case sizes => exact fun total => exists_sizes accepted fits countable found
  case pieces => exact fun raw => exists_cutRaw_window accepted fits countable found

/-- Twenty rows from the second above the origin on are two blocks, of which the lower is
short. -/
theorem blocks_tile_window_rows : Tiling sampledLayer rowWriter :=
  blocks_tile_window ⟨Defaults.initial, .initial, rfl⟩ (by decide) (by decide)
    (by unfold ChannelList.Countable; decide)

example : blocks sampledLayer = [⟨⟨-4, -2⟩, ⟨4, 16⟩⟩, ⟨⟨-4, 14⟩, ⟨4, 4⟩⟩] := by decide

end Command

end PixelBlocks

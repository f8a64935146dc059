import Mathlib.Algebra.GroupWithZero.Nat
import Mathlib.Algebra.Order.BigOperators.Group.List
import Mathlib.Algebra.Order.Group.Nat
import PixelBlocks.Proofs.Layer.Sampling
import PixelBlocks.Proofs.Transform.Segments

/-!
# Sizes of rectangles are sums over their rows

The size of a rectangle is added up row by row and channel by channel, and fails where a
sum leaves the sizes. The bytes of a row depend on its number and on its width only. So
the size is the sum of the bytes of its rows, if that is a size, and rectangles of one
width whose rows make up those of another add up to its size.
-/

namespace PixelBlocks

/-- The bytes that a row of the given width has for one channel. -/
def Channel.rowBytes (width : UInt64) (row : Int) (channel : Channel) : Nat :=
  (if row % channel.sampling.y.toNat ≠ 0 then 0 else (width / channel.sampling.x).toNat) *
    channel.type.byteSize

namespace ChannelList

/-- The bytes that a row of the given width has for all channels. -/
def rowBytes (channels : ChannelList) (width : UInt64) (row : Int) : Nat :=
  (channels.map (Channel.rowBytes width row)).sum

/-- The vertical factors are signed 32-bit numbers. -/
def Countable (channels : ChannelList) : Prop :=
  ∀ channel ∈ channels, channel.sampling.y.toNat < 0x80000000

variable {channels : ChannelList} {bounds : Rectangle} {row : Int32} {count total size : Nat}

section Bound

/-- Adding the bytes of a row leads from a size to a size. -/
theorem lt_bound_of_foldlM (start : total < Size.bound)
    (added : channels.foldlM (addRow bounds row) total = .ok size) : size < Size.bound := by
  induction channels generalizing total with
  | nil =>
    cases added
    exact start
  | cons channel others inductionHypothesis =>
    rw [List.foldlM_cons] at added
    obtain ⟨next, here, later⟩ := Outcome.bind_eq_ok_iff.mp added
    obtain ⟨-, -, -, fits⟩ := addRow_eq_ok_iff.mp here
    exact inductionHypothesis fits later

/-- Adding the bytes of rows leads from a size to a size. -/
theorem lt_bound_of_addRows (start : total < Size.bound)
    (added : channels.addRows bounds count row total = .ok size) : size < Size.bound := by
  induction count generalizing row total with
  | zero =>
    cases added
    exact start
  | succ count inductionHypothesis =>
    rw [addRows_succ] at added
    obtain ⟨next, here, later⟩ := Outcome.bind_eq_ok_iff.mp added
    exact inductionHypothesis (lt_bound_of_foldlM start here) later

/-- A row is added only for vertical factors that are signed 32-bit numbers. -/
theorem countable_of_foldlM (added : channels.foldlM (addRow bounds row) total = .ok size) :
    channels.Countable := by
  induction channels generalizing total with
  | nil => exact fun _ member => (List.not_mem_nil member).elim
  | cons channel others inductionHypothesis =>
    rw [List.foldlM_cons] at added
    obtain ⟨next, here, later⟩ := Outcome.bind_eq_ok_iff.mp added
    obtain ⟨samples, counted, -⟩ := addRow_eq_ok_iff.mp here
    obtain ⟨word, -⟩ := Outcome.guard_eq_ok_iff.mp counted
    exact List.forall_mem_cons.mpr ⟨by omega, inductionHypothesis later⟩

/-- So a rectangle with rows has a size only for such factors. -/
theorem countable_of_byteSize (sized : channels.byteSize bounds = .ok size)
    (rows : 0 < bounds.size.y.toNat) : channels.Countable := by
  obtain ⟨corner, -, added⟩ := Outcome.bind_eq_ok_iff.mp sized
  obtain ⟨count, more⟩ := Nat.exists_eq_succ_of_ne_zero (Nat.ne_of_gt rows)
  rw [more, addRows_succ] at added
  obtain ⟨total, first, -⟩ := Outcome.bind_eq_ok_iff.mp added
  exact countable_of_foldlM first

/-- The size of a rectangle is a size. -/
theorem byteSize_lt (sized : channels.byteSize bounds = .ok size) : size < Size.bound := by
  obtain ⟨corner, -, added⟩ := Outcome.bind_eq_ok_iff.mp sized
  exact lt_bound_of_addRows (by decide) added

end Bound

section Sums

/-- The bytes of a row of one channel are added exactly if the sum is a size. -/
theorem addRow_eq_ok_iff_rowBytes {channel : Channel} (roomy : channel.RoomFrom row.toInt)
    (word : channel.sampling.y.toNat < 0x80000000) :
    addRow bounds row total channel = .ok size ↔
      size = total + channel.rowBytes bounds.size.x row.toInt ∧ size < Size.bound := by
  rw [addRow_eq_ok_iff, Channel.samplesInRow_eq roomy word]
  simp only [Except.ok.injEq, exists_eq_left', Channel.rowBytes]

/-- The bytes of a row are added to a size exactly if the sum is a size. -/
theorem foldlM_addRow_eq_ok_iff (roomy : channels.RoomFrom row.toInt)
    (countable : channels.Countable) (start : total < Size.bound) :
    channels.foldlM (addRow bounds row) total = .ok size ↔
      size = total + channels.rowBytes bounds.size.x row.toInt ∧ size < Size.bound := by
  induction channels generalizing total with
  | nil =>
    simp only [List.foldlM_nil, Outcome.pure_eq_ok, Except.ok.injEq, rowBytes, List.map_nil,
      List.sum_nil, Nat.add_zero, eq_comm]
    exact (and_iff_left_of_imp fun same => same ▸ start).symm
  | cons channel others inductionHypothesis =>
    obtain ⟨here, later⟩ := List.forall_mem_cons.mp roomy
    obtain ⟨word, words⟩ := List.forall_mem_cons.mp countable
    have total_eq : rowBytes (channel :: others) bounds.size.x row.toInt =
        channel.rowBytes bounds.size.x row.toInt + rowBytes others bounds.size.x row.toInt := by
      simp [rowBytes]
    rw [List.foldlM_cons, Outcome.bind_eq_ok_iff, total_eq, ← Nat.add_assoc]
    constructor
    · rintro ⟨next, first, rest⟩
      obtain ⟨rfl, fits⟩ := (addRow_eq_ok_iff_rowBytes here word).mp first
      exact (inductionHypothesis later words fits).mp rest
    · rintro ⟨rfl, fits⟩
      have partly : total + channel.rowBytes bounds.size.x row.toInt < Size.bound := by omega
      exact ⟨_, (addRow_eq_ok_iff_rowBytes here word).mpr ⟨rfl, partly⟩,
        (inductionHypothesis later words partly).mpr ⟨rfl, fits⟩⟩

/-- The bytes of consecutive rows are added to a size exactly if the sum is a size, as long
as the row behind the last is a word. -/
theorem addRows_eq_ok_iff (roomy : channels.RoomFrom row.toInt) (countable : channels.Countable)
    (word : row.toInt + count < 0x80000000) (start : total < Size.bound) :
    channels.addRows bounds count row total = .ok size ↔
      size = total + ((List.range count).map fun index : Nat =>
        channels.rowBytes bounds.size.x (row.toInt + index)).sum ∧ size < Size.bound := by
  induction count generalizing row total with
  | zero =>
    simp only [addRows, Except.ok.injEq, List.range_zero, List.map_nil, List.sum_nil,
      Nat.add_zero, eq_comm]
    exact (and_iff_left_of_imp fun same => same ▸ start).symm
  | succ count inductionHypothesis =>
    have next : (row + 1).toInt = row.toInt + 1 := toInt_next (by omega)
    have below : (List.range (count + 1)).map (fun index : Nat =>
          channels.rowBytes bounds.size.x (row.toInt + index)) =
        channels.rowBytes bounds.size.x row.toInt :: (List.range count).map fun index : Nat =>
          channels.rowBytes bounds.size.x ((row + 1).toInt + index) := by
      simp [List.range_succ_eq_map, next, Function.comp_def, Int.add_assoc, Int.add_comm 1]
    rw [addRows_succ, Outcome.bind_eq_ok_iff, below, List.sum_cons, ← Nat.add_assoc]
    constructor
    · rintro ⟨here, first, rest⟩
      obtain ⟨rfl, fits⟩ := (foldlM_addRow_eq_ok_iff roomy countable start).mp first
      exact (inductionHypothesis (roomy.mono (by omega)) (by omega) fits).mp rest
    · rintro ⟨rfl, fits⟩
      have partly : total + channels.rowBytes bounds.size.x row.toInt < Size.bound := by omega
      exact ⟨_, (foldlM_addRow_eq_ok_iff roomy countable start).mpr ⟨rfl, partly⟩,
        (inductionHypothesis (roomy.mono (by omega)) (by omega) partly).mpr ⟨rfl, fits⟩⟩

/-- The size of a rectangle is the sum of the bytes of its rows, if this is a size. -/
theorem byteSize_eq_ok_iff (roomy : channels.RoomFrom bounds.position.y.toInt)
    (countable : channels.Countable) {corner : Pair Int32}
    (found : bounds.opposite = .ok corner) :
    channels.byteSize bounds = .ok size ↔
      size = (bounds.rows.map (channels.rowBytes bounds.size.x)).sum ∧ size < Size.bound := by
  have below := (Rectangle.opposite_eq_ok_iff.mp found).2.2
  have most := corner.y.toInt_lt
  rw [byteSize, found, Outcome.ok_bind, addRows_eq_ok_iff roomy countable (by omega) (by decide),
    Nat.zero_add, Rectangle.rows, List.map_map]
  rfl

/-- Blocks of the width of a window whose rows are those of the window, in order, have sizes
that add up to the size of the window. -/
theorem exists_mapM_byteSize {window : Rectangle} {blocks : List Rectangle}
    (roomy : channels.RoomFrom window.position.y.toInt) (countable : channels.Countable)
    {corner : Pair Int32} (found : window.opposite = .ok corner)
    (inside : ∀ block ∈ blocks, window.position.y.toInt ≤ block.position.y.toInt ∧
      block.size.x = window.size.x ∧ ∃ corner, block.opposite = .ok corner)
    (covered : blocks.flatMap Rectangle.rows = window.rows)
    (sized : channels.byteSize window = .ok total) :
    ∃ sizes, blocks.mapM channels.byteSize = .ok sizes ∧ sizes.sum = total := by
  obtain ⟨whole, fits⟩ := (byteSize_eq_ok_iff roomy countable found).mp sized
  have parts : (blocks.map fun block =>
      (block.rows.map (channels.rowBytes window.size.x)).sum).sum = total := by
    rw [whole, ← covered, List.map_flatMap, List.flatMap_def, List.sum_flatten, List.map_map]
    rfl
  refine ⟨_, Outcome.mapM_eq_ok_map fun block member => ?_, parts⟩
  obtain ⟨below, width, blockCorner, blockFound⟩ := inside block member
  refine (byteSize_eq_ok_iff (roomy.mono below) countable blockFound).mpr ⟨by rw [width], ?_⟩
  have part : (block.rows.map (channels.rowBytes window.size.x)).sum ≤ total := by
    rw [← parts]
    exact List.le_sum_of_mem (List.mem_map_of_mem member)
  omega

end Sums

end ChannelList

end PixelBlocks

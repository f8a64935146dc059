import Mathlib.Algebra.BigOperators.Group.List.Basic
import PixelBlocks.Proofs.Geometry.Multiples
import PixelBlocks.Proofs.Layer.ByteSize

/-!
# Sizes of rectangles are sums over their channels

The size of a rectangle is added up row by row, but what one channel adds to it has a closed
form: the rows that its vertical factor divides, times the quotient of the width by its
horizontal factor. If the sum over the channels is a size, it is the size of the rectangle, and
else the rectangle is too large. There is no other reason why a rectangle with an opposite
corner has no size.
-/

namespace PixelBlocks

/-- The bytes that a rectangle has for one channel. -/
def Channel.bytesIn (bounds : Rectangle) (channel : Channel) : Nat :=
  multiples channel.sampling.y.toNat bounds.position.y.toInt bounds.size.y.toNat *
    (bounds.size.x.toNat / channel.sampling.x.toNat * channel.type.byteSize)

/-- The bytes that a rectangle has for all channels. -/
def ChannelList.bytesIn (channels : ChannelList) (bounds : Rectangle) : Nat :=
  (channels.map (Channel.bytesIn bounds)).sum

/-- A sum in which each number that counts adds the same. -/
theorem sum_map_ite_eq_countP_mul {Number : Type} (counts : Number → Prop) [DecidablePred counts]
    (each : Nat) (numbers : List Number) :
    (numbers.map fun number => if counts number then each else 0).sum =
      numbers.countP (fun number => counts number) * each := by
  induction numbers with
  | nil => simp
  | cons number others inductionHypothesis =>
    rw [List.map_cons, List.sum_cons, inductionHypothesis, List.countP_cons]
    by_cases here : counts number
    · simp [here, Nat.add_mul, Nat.add_comm]
    · simp [here]

/-- The rows of a rectangle have together what the rectangle has for a channel. -/
theorem Channel.sum_rowBytes (bounds : Rectangle) (channel : Channel) :
    (bounds.rows.map fun row => channel.rowBytes bounds.size.x row).sum =
      channel.bytesIn bounds := by
  have each : ∀ row : Int, channel.rowBytes bounds.size.x row =
      if (channel.sampling.y.toNat : Int) ∣ row then
        bounds.size.x.toNat / channel.sampling.x.toNat * channel.type.byteSize else 0 := by
    intro row
    simp only [Channel.rowBytes, UInt64.toNat_div, ite_not, Int.dvd_iff_emod_eq_zero, ite_mul,
      Nat.zero_mul]
  simp only [each]
  rw [sum_map_ite_eq_countP_mul, Rectangle.rows_eq_interval]
  rfl

namespace ChannelList

variable {channels : ChannelList} {bounds : Rectangle} {row : Int32} {count total size : Nat}
variable {fault : Fault} {corner : Pair Int32}

/-- The rows of a rectangle have together what the rectangle has for all channels: the sum over
rows is exchanged with the sum over channels. -/
theorem sum_rowBytes (channels : ChannelList) (bounds : Rectangle) :
    (bounds.rows.map (channels.rowBytes bounds.size.x)).sum = channels.bytesIn bounds := by
  induction channels with
  | nil =>
    have nothing : ∀ row, rowBytes [] bounds.size.x row = 0 := fun _ => rfl
    rw [List.map_congr_left fun row _ => nothing row]
    simp [bytesIn]
  | cons channel others inductionHypothesis =>
    have apart : ∀ row, rowBytes (channel :: others) bounds.size.x row =
        channel.rowBytes bounds.size.x row + rowBytes others bounds.size.x row := by
      simp [rowBytes]
    rw [List.map_congr_left fun row _ => apart row, List.sum_map_add, inductionHypothesis,
      Channel.sum_rowBytes]
    simp [bytesIn]

section Excess

/-- A row of a channel that is not added is too large. -/
theorem fault_of_addRow {channel : Channel} (roomy : channel.RoomFrom row.toInt)
    (word : channel.sampling.y.toNat < 0x80000000)
    (failed : addRow bounds row total channel = .error fault) : fault = .capacity .blockSize := by
  rw [addRow, Channel.samplesInRow_eq roomy word, Outcome.ok_bind] at failed
  split at failed
  · cases failed
  · cases failed
    rfl

/-- A row of several channels that is not added is too large. -/
theorem fault_of_foldlM (roomy : channels.RoomFrom row.toInt) (countable : channels.Countable)
    (failed : channels.foldlM (addRow bounds row) total = .error fault) :
    fault = .capacity .blockSize := by
  induction channels generalizing total with
  | nil => cases failed
  | cons channel others inductionHypothesis =>
    obtain ⟨here, later⟩ := List.forall_mem_cons.mp roomy
    obtain ⟨word, words⟩ := List.forall_mem_cons.mp countable
    rw [List.foldlM_cons] at failed
    cases added : addRow bounds row total channel with
    | error found =>
      rw [added, Outcome.error_bind] at failed
      cases failed
      exact fault_of_addRow here word added
    | ok next =>
      rw [added, Outcome.ok_bind] at failed
      exact inductionHypothesis later words failed

/-- Rows that are not added are too large, as long as the row behind the last is a word. -/
theorem fault_of_addRows (roomy : channels.RoomFrom row.toInt) (countable : channels.Countable)
    (word : row.toInt + count < 0x80000000)
    (failed : channels.addRows bounds count row total = .error fault) :
    fault = .capacity .blockSize := by
  induction count generalizing row total with
  | zero => cases failed
  | succ count inductionHypothesis =>
    have next : (row + 1).toInt = row.toInt + 1 := toInt_next (by omega)
    rw [addRows_succ] at failed
    cases added : channels.foldlM (addRow bounds row) total with
    | error found =>
      rw [added, Outcome.error_bind] at failed
      cases failed
      exact fault_of_foldlM roomy countable added
    | ok sum =>
      rw [added, Outcome.ok_bind] at failed
      exact inductionHypothesis (roomy.mono (by omega)) (by omega) failed

end Excess

/-- The size of a rectangle is the sum over its channels, if this is a size. -/
theorem byteSize_eq_ok_iff_bytesIn (roomy : channels.RoomFrom bounds.position.y.toInt)
    (countable : channels.Countable) (found : bounds.opposite = .ok corner) :
    channels.byteSize bounds = .ok size ↔ size = channels.bytesIn bounds ∧ size < Size.bound := by
  rw [byteSize_eq_ok_iff roomy countable found, sum_rowBytes]

/-- A size that was found is the sum over the channels. -/
theorem eq_bytesIn_of_byteSize (sized : channels.byteSize bounds = .ok size)
    (roomy : channels.RoomFrom bounds.position.y.toInt) (countable : channels.Countable) :
    size = channels.bytesIn bounds ∧ size < Size.bound := by
  obtain ⟨corner, found, -⟩ := Outcome.bind_eq_ok_iff.mp sized
  exact (byteSize_eq_ok_iff_bytesIn roomy countable found).mp sized

/-- The size of a rectangle is the sum over its channels, or the rectangle is too large. -/
theorem byteSize_eq (roomy : channels.RoomFrom bounds.position.y.toInt)
    (countable : channels.Countable) (found : bounds.opposite = .ok corner) :
    channels.byteSize bounds =
      if channels.bytesIn bounds < Size.bound then .ok (channels.bytesIn bounds)
      else .error (.capacity .blockSize) := by
  by_cases fits : channels.bytesIn bounds < Size.bound
  · rw [if_pos fits]
    exact (byteSize_eq_ok_iff_bytesIn roomy countable found).mpr ⟨rfl, fits⟩
  · rw [if_neg fits]
    cases sized : channels.byteSize bounds with
    | ok size =>
      obtain ⟨rfl, small⟩ := (byteSize_eq_ok_iff_bytesIn roomy countable found).mp sized
      exact absurd small fits
    | error fault =>
      rw [byteSize, found, Outcome.ok_bind] at sized
      have below := (Rectangle.opposite_eq_ok_iff.mp found).2.2
      have most := corner.y.toInt_lt
      rw [fault_of_addRows roomy countable (by omega) sized]

end ChannelList

/-- Full rows of floats, and halves at every second pixel of every second row. -/
def Layer.chromaLayer : Layer where
  channels := [{ Channel.full "BY" .half with sampling := ⟨2, 2⟩ }, .full "Y" .float]
  method := .zipBlock
  window := ⟨⟨-4, -2⟩, ⟨8, 6⟩⟩
  partition := .scanLines
  deep := false
  zstdLevel := none

-- The halves have three rows of four samples, the floats six rows of eight.
example : Layer.chromaLayer.channels.bytesIn Layer.chromaLayer.window = 3 * 8 + 6 * 32 := by decide

end PixelBlocks

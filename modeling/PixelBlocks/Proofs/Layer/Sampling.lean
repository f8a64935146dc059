import PixelBlocks.Proofs.Geometry.FloorDivision
import PixelBlocks.Proofs.Geometry.Rectangle
import PixelBlocks.Proofs.Layer
import PixelBlocks.Transform.Planes

/-!
# Samples of accepted channels

Whether a row has samples of a channel is decided by a remainder of the row. An accepted
sampling factor divides the first row of the window. So a factor is at most as far from
zero as this row is, if this row has a negative number, and only negative numbers need
room. Hence the remainders of all rows of the window stay within their words, and so do
the sizes and segments that are counted with them.
-/

namespace PixelBlocks

namespace Channel

/-- Sampling factors that leave room for the remainders of a row and of all later ones. -/
structure RoomFrom (row : Int) (channel : Channel) : Prop where
  columns : channel.sampling.x ≠ 0
  rows : channel.sampling.y ≠ 0
  room : channel.sampling.y.toNat < 0x80000000 →
    channel.sampling.y.toNat - 1 - row < 0x80000000

instance (row : Int) (channel : Channel) : Decidable (channel.RoomFrom row) :=
  decidable_of_iff
    (channel.sampling.x ≠ 0 ∧ channel.sampling.y ≠ 0 ∧
      (channel.sampling.y.toNat < 0x80000000 →
        channel.sampling.y.toNat - 1 - row < 0x80000000))
    ⟨fun ⟨columns, rows, room⟩ => ⟨columns, rows, room⟩,
      fun ⟨columns, rows, room⟩ => ⟨columns, rows, room⟩⟩

/-- Later rows leave more room. -/
theorem RoomFrom.mono {channel : Channel} {row later : Int} (roomy : RoomFrom row channel)
    (behind : row ≤ later) : RoomFrom later channel where
  columns := roomy.columns
  rows := roomy.rows
  room word := by
    have enough := roomy.room word
    omega

/-- The horizontal factor is positive. -/
theorem RoomFrom.columns_pos {channel : Channel} {row : Int} (roomy : RoomFrom row channel) :
    0 < channel.sampling.x.toNat :=
  Nat.pos_of_ne_zero fun zero => roomy.columns (UInt64.toNat_inj.mp zero)

/-- The vertical factor is positive. -/
theorem RoomFrom.rows_pos {channel : Channel} {row : Int} (roomy : RoomFrom row channel) :
    0 < channel.sampling.y.toNat :=
  Nat.pos_of_ne_zero fun zero => roomy.rows (UInt64.toNat_inj.mp zero)

/-- How far a factor is from zero as a signed word: as far as its number says up to half of
the bound, and from there on only as far as the bound is from it. -/
def magnitude (factor : UInt64) : Nat :=
  if factor.toNat ≤ 0x8000000000000000 then factor.toNat
  else 0x10000000000000000 - factor.toNat

/-- The distance of the signed word from zero. -/
theorem natAbs_toInt64 (factor : UInt64) : factor.toInt64.toInt.natAbs = magnitude factor := by
  have bounded := factor.toNat_lt
  rw [toInt_toInt64_eq_bmod, Int.bmod_def, magnitude]
  split <;> split <;> omega

/-- A factor divides in words exactly if its magnitude divides. -/
theorem divides_iff_magnitude {factor : UInt64} {value : Int64} :
    divides factor value = true ↔ (magnitude factor : Int) ∣ value.toInt := by
  have zero : (0 : Int64).toInt = 0 := rfl
  rw [divides, beq_iff_eq, ← Int64.toInt_inj, Int64.toInt_mod, zero, ← Int.dvd_iff_tmod_eq_zero,
    ← Int.natAbs_dvd, natAbs_toInt64]

/-- A factor that is a signed word divides in words exactly if it divides. -/
theorem divides_eq_true_iff {factor : UInt64} (word : factor.toNat < 0x8000000000000000)
    {value : Int64} : divides factor value = true ↔ (factor.toNat : Int) ∣ value.toInt := by
  rw [divides_iff_magnitude, magnitude, if_pos (by omega)]

/-- The checks that an accepted channel passed. -/
theorem validate_eq_ok_iff {channel : Channel} {allowSampling : Bool} {window : Rectangle} :
    channel.validate allowSampling window = .ok () ↔
      (channel.sampling.x ≠ 0 ∧ channel.sampling.y ≠ 0) ∧
      (allowSampling = false → channel.sampling = ⟨1, 1⟩) ∧
      (divides channel.sampling.x window.position.x.toInt64 = true ∧
        divides channel.sampling.y window.position.y.toInt64 = true) ∧
      divides channel.sampling.x window.size.x.toInt64 = true ∧
        divides channel.sampling.y window.size.y.toInt64 = true := by
  rw [validate, Outcome.guard_eq_ok_iff, Outcome.guard_eq_ok_iff, Outcome.guard_eq_ok_iff,
    Outcome.guard_eq_ok_iff]
  simp only [not_or, not_and_not_right, not_not, Bool.not_eq_true, and_true, ne_eq]

/-- An accepted vertical factor divides the first row of the window, if it is a signed word. -/
theorem dvd_start_of_validate {channel : Channel} {allowSampling : Bool} {window : Rectangle}
    (accepted : channel.validate allowSampling window = .ok ())
    (word : channel.sampling.y.toNat < 0x8000000000000000) :
    (channel.sampling.y.toNat : Int) ∣ window.position.y.toInt := by
  obtain ⟨-, -, ⟨-, start⟩, -⟩ := validate_eq_ok_iff.mp accepted
  rw [← Int32.toInt_toInt64]
  exact (divides_eq_true_iff word).mp start

/-- An accepted channel leaves room from the first row of an accepted window on. -/
theorem roomFrom_of_validate {channel : Channel} {allowSampling : Bool} {window : Rectangle}
    (accepted : channel.validate allowSampling window = .ok ())
    (limit : -0x3fffffff < window.position.y.toInt) :
    channel.RoomFrom window.position.y.toInt := by
  obtain ⟨⟨columns, rows⟩, -⟩ := validate_eq_ok_iff.mp accepted
  refine ⟨columns, rows, fun word => ?_⟩
  have divides := dvd_start_of_validate accepted (by omega)
  by_cases negative : window.position.y.toInt < 0
  · have distance := Int.le_of_dvd (by omega) ((Int.dvd_neg).mpr divides)
    omega
  · omega

/-- How many samples a row has: none unless its remainder by the factor is zero in words. -/
theorem samplesInRow_eq_of_remainder {channel : Channel} (columns : channel.sampling.x ≠ 0)
    (rows : channel.sampling.y ≠ 0) (word : channel.sampling.y.toNat < 0x80000000) (row : Int32)
    (bounds : Rectangle) :
    channel.samplesInRow row bounds =
      .ok (if floorRemainder row (Int32.ofNat channel.sampling.y.toNat) ≠ 0 then 0
        else (bounds.size.x / channel.sampling.x).toNat) := by
  have full : channel.resolution bounds.size =
      .ok ⟨bounds.size.x / channel.sampling.x, bounds.size.y / channel.sampling.y⟩ :=
    if_neg (not_or.mpr ⟨columns, rows⟩)
  rw [samplesInRow, if_neg (by omega), if_neg rows, full]
  split <;> rfl

/-- How many samples a row has, for a channel that leaves room: none unless the factor
divides the row. -/
theorem samplesInRow_eq {channel : Channel} {row : Int32} (roomy : channel.RoomFrom row.toInt)
    (word : channel.sampling.y.toNat < 0x80000000) (bounds : Rectangle) :
    channel.samplesInRow row bounds =
      .ok (if row.toInt % channel.sampling.y.toNat ≠ 0 then 0
        else (bounds.size.x / channel.sampling.x).toNat) := by
  have factor : (Int32.ofNat channel.sampling.y.toNat).toInt = channel.sampling.y.toNat :=
    Int32.toInt_ofNat_of_lt word
  have positive := roomy.rows_pos
  have room := roomy.room word
  have remainder : floorRemainder row (Int32.ofNat channel.sampling.y.toNat) ≠ 0 ↔
      row.toInt % channel.sampling.y.toNat ≠ 0 := by
    have value : (floorRemainder row (Int32.ofNat channel.sampling.y.toNat)).toInt =
        row.toInt % channel.sampling.y.toNat := by
      rw [toInt_floorRemainder (by omega) (by omega), factor]
    rw [ne_eq, ← Int32.toInt_inj, value]
    rfl
  rw [samplesInRow_eq_of_remainder roomy.columns roomy.rows word]
  simp only [remainder]

end Channel

namespace ChannelList

/-- Every channel behind an accepted name is accepted itself. -/
theorem validate_of_validateAfter {allowSampling : Bool} {window : Rectangle} {previous : Name}
    {channels : ChannelList}
    (accepted : validateAfter allowSampling window previous channels = .ok ()) :
    ∀ channel ∈ channels, channel.validate allowSampling window = .ok () := by
  induction channels generalizing previous with
  | nil => simp
  | cons channel rest inductionHypothesis =>
    obtain ⟨⟨⟩, here, named⟩ := Outcome.bind_eq_ok_iff.mp accepted
    refine List.forall_mem_cons.mpr ⟨here, ?_⟩
    split at named
    · cases named
    · cases named
    · exact inductionHypothesis named

/-- Every channel of an accepted list is accepted itself. -/
theorem validate_of_mem {allowSampling : Bool} {window : Rectangle} {channels : ChannelList}
    (accepted : channels.validate allowSampling window = .ok ()) :
    ∀ channel ∈ channels, channel.validate allowSampling window = .ok () := by
  cases channels with
  | nil => cases accepted
  | cons channel rest =>
    obtain ⟨⟨⟩, first, others⟩ := Outcome.bind_eq_ok_iff.mp accepted
    exact List.forall_mem_cons.mpr ⟨first, validate_of_validateAfter others⟩

/-- All channels leave room from a row on. -/
def RoomFrom (row : Int) (channels : ChannelList) : Prop :=
  ∀ channel ∈ channels, channel.RoomFrom row

instance (row : Int) (channels : ChannelList) : Decidable (channels.RoomFrom row) :=
  inferInstanceAs (Decidable (∀ channel ∈ channels, channel.RoomFrom row))

/-- Later rows leave more room. -/
theorem RoomFrom.mono {channels : ChannelList} {row later : Int}
    (roomy : channels.RoomFrom row) (behind : row ≤ later) : channels.RoomFrom later :=
  fun channel member => (roomy channel member).mono behind

end ChannelList

/-- The channels of an accepted layer leave room from the first row of its window on. -/
theorem Layer.Accepted.roomFrom {layer : Layer} (accepted : layer.Accepted) :
    layer.channels.RoomFrom layer.window.position.y.toInt := by
  intro channel member
  have limit := Rectangle.lt_start_of_axis (Rectangle.validate_eq_ok_iff.mp accepted.window).2.2
  exact Channel.roomFrom_of_validate (ChannelList.validate_of_mem accepted.channels _ member) limit

/-- A rectangle within the window of an accepted layer leaves room, and has an opposite corner. -/
theorem Layer.Accepted.roomFrom_of_contains {layer : Layer} {bounds : Rectangle}
    (accepted : layer.Accepted) (inside : layer.window.contains bounds = .ok true) :
    layer.channels.RoomFrom bounds.position.y.toInt ∧
      ∃ corner, bounds.opposite = .ok corner := by
  obtain ⟨⟨corner, found⟩, within⟩ := Rectangle.contains_eq_ok_true_iff_within.mp inside
  exact ⟨accepted.roomFrom.mono within.above, within.exists_opposite found⟩

/-- The next row is one further, unless there is none. -/
theorem toInt_next {row : Int32} (word : row.toInt + 1 < 0x80000000) :
    (row + 1).toInt = row.toInt + 1 := by
  have least := row.le_toInt
  have one : (1 : Int32).toInt = 1 := rfl
  rw [Int32.toInt_add, one, Int.bmod_eq_of_le (by omega) (by omega)]

namespace Checked

/-- The samples of a row, counted in steps that are checked. -/
def samplesInRow (channel : Channel) (row : Int) (bounds : Rectangle) : Checked Nat :=
  if 0x80000000 ≤ channel.sampling.y.toNat then .error (.fault (.invalid .channelSampling))
  else do
    let left ← floorRemainder row channel.sampling.y.toNat
    if left ≠ 0 then return 0
    else
      let columns ← ratio bounds.size.x.toNat channel.sampling.x.toNat
      let _ ← ratio bounds.size.y.toNat channel.sampling.y.toNat
      return columns

/-- Channels that leave room have samples in a row without leaving a word. -/
theorem samplesInRow_eq_ofOutcome {channel : Channel} {row : Int32}
    (roomy : channel.RoomFrom row.toInt) (bounds : Rectangle) :
    samplesInRow channel row.toInt bounds = ofOutcome (channel.samplesInRow row bounds) := by
  by_cases large : 0x80000000 ≤ channel.sampling.y.toNat
  · rw [samplesInRow, if_pos large, Channel.samplesInRow, if_pos large]
    rfl
  · have least := row.le_toInt
    have most := row.toInt_lt
    have room := roomy.room (by omega)
    have positive := roomy.rows_pos
    rw [samplesInRow, if_neg large, floorRemainder_eq_ok (by omega) (by omega) (by omega)
      (by omega) (by omega), Outcome.ok_bind, Channel.samplesInRow_eq roomy (by omega),
      ratio_eq_ok roomy.columns_pos,
      ratio_eq_ok roomy.rows_pos]
    simp only [Outcome.ok_bind, UInt64.toNat_div, ofOutcome_ok, Outcome.pure_eq_ok]
    split <;> rfl

/-- The next row is found without leaving the word. -/
theorem signed_next {row : Int32} (word : row.toInt + 1 < 0x80000000) :
    signed 32 (row.toInt + 1) = .ok (row + 1).toInt := by
  have least := row.le_toInt
  rw [toInt_next word]
  exact signed_eq_ok (by omega) (by omega)

/-- Adds the bytes of a row of one channel to a size, in steps that are checked. -/
def addRow (bounds : Rectangle) (row : Int) (total : Nat) (channel : Channel) : Checked Nat := do
  let samples ← samplesInRow channel row bounds
  match (Size.mul? samples channel.type.byteSize).bind (Size.add? total) with
  | some total => .ok total
  | none => .error (.fault (.capacity .blockSize))

/-- Adds the bytes of consecutive rows to a size, in steps that are checked. -/
def addRows (channels : ChannelList) (bounds : Rectangle) :
    (count : Nat) → (row : Int) → (total : Nat) → Checked Nat
  | 0, _, total => .ok total
  | count + 1, row, total => do
    let total ← channels.foldlM (addRow bounds row) total
    let next ← signed 32 (row + 1)
    addRows channels bounds count next total

/-- The bytes of a rectangle, counted in steps that are checked. -/
def byteSize (channels : ChannelList) (bounds : Rectangle) : Checked Nat := do
  let _ ← ofOutcome bounds.opposite
  addRows channels bounds bounds.size.y.toNat bounds.position.y.toInt 0

/-- The segments of a row, found in steps that are checked. -/
def rowSegments (bounds : Rectangle) (row : Int) (channels : ChannelList) :
    Checked (List Planes.Segment) :=
  channels.mapM fun channel => do
    let samples ← samplesInRow channel row bounds
    return ⟨channel.type, samples⟩

/-- The segments of consecutive rows, found in steps that are checked. -/
def segmentsFrom (channels : ChannelList) (bounds : Rectangle) :
    (count : Nat) → (row : Int) → Checked (List Planes.Segment)
  | 0, _ => .ok []
  | count + 1, row => do
    let here ← rowSegments bounds row channels
    let next ← signed 32 (row + 1)
    let below ← segmentsFrom channels bounds count next
    return here ++ below

/-- The segments of a block, found in steps that are checked. -/
def segments (channels : ChannelList) (bounds : Rectangle) : Checked (List Planes.Segment) := do
  let _ ← ofOutcome bounds.opposite
  segmentsFrom channels bounds bounds.size.y.toNat bounds.position.y.toInt

variable {channels : ChannelList} {bounds : Rectangle} {row : Int32}

/-- A row of one channel is added without leaving a word. -/
theorem addRow_eq_ofOutcome {channel : Channel} (roomy : channel.RoomFrom row.toInt)
    (total : Nat) :
    addRow bounds row.toInt total channel =
      ofOutcome (ChannelList.addRow bounds row total channel) := by
  refine bind_eq_ofOutcome (samplesInRow_eq_ofOutcome roomy bounds) fun samples _ => ?_
  cases (Size.mul? samples channel.type.byteSize).bind (Size.add? total) <;> rfl

/-- Rows are added without leaving a word, as long as the row behind the last is a word. -/
theorem addRows_eq_ofOutcome {count : Nat} (roomy : channels.RoomFrom row.toInt)
    (word : row.toInt + count < 0x80000000) (total : Nat) :
    addRows channels bounds count row.toInt total =
      ofOutcome (channels.addRows bounds count row total) := by
  induction count generalizing row total with
  | zero => rfl
  | succ count inductionHypothesis =>
    have next : (row + 1).toInt = row.toInt + 1 := toInt_next (by omega)
    have here : channels.foldlM (addRow bounds row.toInt) total =
        ofOutcome (channels.foldlM (ChannelList.addRow bounds row) total) :=
      foldlM_eq_ofOutcome
        (fun channel member total => addRow_eq_ofOutcome (roomy channel member) total) total
    rw [addRows, ChannelList.addRows, here, signed_next (by omega)]
    cases channels.foldlM (ChannelList.addRow bounds row) total with
    | error fault => rfl
    | ok total =>
      exact inductionHypothesis (roomy.mono (by omega)) (by omega) total

/-- The bytes of a rectangle are counted without leaving a word, if the channels leave room
from its first row on. -/
theorem byteSize_eq_ofOutcome (roomy : channels.RoomFrom bounds.position.y.toInt) :
    byteSize channels bounds = ofOutcome (channels.byteSize bounds) := by
  refine bind_eq_ofOutcome rfl fun corner found => ?_
  have below := (Rectangle.opposite_eq_ok_iff.mp found).2.2
  have most := corner.y.toInt_lt
  exact addRows_eq_ofOutcome roomy (by omega) 0

/-- The segments of a row are found without leaving a word. -/
theorem rowSegments_eq_ofOutcome (roomy : channels.RoomFrom row.toInt) :
    rowSegments bounds row.toInt channels =
      ofOutcome (Planes.rowSegments bounds row channels) := by
  refine mapM_eq_ofOutcome fun channel member => ?_
  exact bind_eq_ofOutcome (samplesInRow_eq_ofOutcome (roomy channel member) bounds)
    fun _ _ => rfl

/-- The segments of rows are found without leaving a word, as long as the row behind the last
is a word. -/
theorem segmentsFrom_eq_ofOutcome {count : Nat} (roomy : channels.RoomFrom row.toInt)
    (word : row.toInt + count < 0x80000000) :
    segmentsFrom channels bounds count row.toInt =
      ofOutcome (Planes.segmentsFrom channels bounds count row) := by
  induction count generalizing row with
  | zero => rfl
  | succ count inductionHypothesis =>
    have next : (row + 1).toInt = row.toInt + 1 := toInt_next (by omega)
    refine bind_eq_ofOutcome (rowSegments_eq_ofOutcome roomy) fun here _ => ?_
    rw [signed_next (by omega), Outcome.ok_bind]
    exact bind_eq_ofOutcome (inductionHypothesis (roomy.mono (by omega)) (by omega))
      fun _ _ => rfl

/-- The segments of a block are found without leaving a word, if the channels leave room from
its first row on. -/
theorem segments_eq_ofOutcome (roomy : channels.RoomFrom bounds.position.y.toInt) :
    segments channels bounds = ofOutcome (Planes.segments channels bounds) := by
  refine bind_eq_ofOutcome rfl fun corner found => ?_
  have below := (Rectangle.opposite_eq_ok_iff.mp found).2.2
  have most := corner.y.toInt_lt
  exact segmentsFrom_eq_ofOutcome roomy (by omega)

end Checked

end PixelBlocks

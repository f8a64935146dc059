import PixelBlocks.Proofs.Layer.Factors
import PixelBlocks.Proofs.Layer.Samples

/-!
# Sizes of windows from resolutions

The size of a window is added up row by row. Its factors divide its sides, so the channel has as
many samples on each side as its resolution says, wherever the window starts. So the size of the
window is also the sum of the areas of all resolutions, in bytes. Rows are told apart by their
remainders, and these leave no word in any row of the window.
-/

namespace PixelBlocks

variable {channel : Channel} {channels : ChannelList} {size : Pair UInt64} {window : Rectangle}

/-- An area is the product of both sides, if these are 32-bit numbers. -/
theorem Pair.toNat_area (narrow : size.x.toNat < 0x80000000) (short : size.y.toNat < 0x80000000) :
    size.area.toNat = size.x.toNat * size.y.toNat := by
  have fits : size.x.toNat * size.y.toNat < 0x80000000 * 0x80000000 :=
    Nat.mul_lt_mul'' narrow short
  rw [Pair.area, UInt64.toNat_mul, Nat.mod_eq_of_lt (by omega)]

/-- The bytes of all channels in an area of the given size: the area of each resolution, in
bytes. -/
def ChannelList.resolvedBytes (channels : ChannelList) (size : Pair UInt64) : Outcome Nat := do
  let parts ← channels.mapM fun channel => do
    let resolution ← channel.resolution size
    return resolution.area.toNat * channel.type.byteSize
  return parts.sum

/-- Channels without a factor of zero have a resolution. -/
theorem Channel.resolution_eq_ok (columns : channel.sampling.x ≠ 0)
    (rows : channel.sampling.y ≠ 0) (size : Pair UInt64) :
    channel.resolution size =
      .ok ⟨size.x / channel.sampling.x, size.y / channel.sampling.y⟩ :=
  if_neg (not_or.mpr ⟨columns, rows⟩)

/-- A factor that divides the height of a window picks as many rows as the quotient says, so the
area of the resolution counts the samples of the window. -/
theorem Channel.bytesIn_eq_area_mul (positive : 0 < channel.sampling.y.toNat)
    (narrow : window.size.x.toNat < 0x80000000) (short : window.size.y.toNat < 0x80000000)
    (divides : channel.sampling.y.toNat ∣ window.size.y.toNat) :
    channel.bytesIn window = (Pair.area ⟨window.size.x / channel.sampling.x,
      window.size.y / channel.sampling.y⟩).toNat * channel.type.byteSize := by
  have fewerColumns : (window.size.x / channel.sampling.x).toNat ≤ window.size.x.toNat := by
    rw [UInt64.toNat_div]
    exact Nat.div_le_self _ _
  have fewerRows : (window.size.y / channel.sampling.y).toNat ≤ window.size.y.toNat := by
    rw [UInt64.toNat_div]
    exact Nat.div_le_self _ _
  have sampledRows := multiples_mul positive window.position.y.toInt
    (window.size.y.toNat / channel.sampling.y.toNat)
  rw [Nat.div_mul_cancel divides] at sampledRows
  rw [Pair.toNat_area (Nat.lt_of_le_of_lt fewerColumns narrow)
    (Nat.lt_of_le_of_lt fewerRows short), UInt64.toNat_div, UInt64.toNat_div, bytesIn, sampledRows,
    ← Nat.mul_assoc, Nat.mul_comm (window.size.y.toNat / _)]

/-- With a sample at every pixel, a rectangle has for each pixel one sample of every channel. -/
theorem ChannelList.bytesIn_eq_mul (full : ∀ channel ∈ channels, channel.sampling = ⟨1, 1⟩)
    (bounds : Rectangle) : channels.bytesIn bounds =
      bounds.size.x.toNat * bounds.size.y.toNat * channels.bytesPerPixel := by
  induction channels with
  | nil => rfl
  | cons channel others inductionHypothesis =>
    obtain ⟨here, later⟩ := List.forall_mem_cons.mp full
    have one : (1 : UInt64).toNat = 1 := rfl
    have first : channel.bytesIn bounds =
        bounds.size.x.toNat * bounds.size.y.toNat * channel.type.byteSize := by
      rw [Channel.bytesIn, here, one, multiples_one, Nat.div_one, ← Nat.mul_assoc,
        Nat.mul_comm bounds.size.y.toNat]
    rw [bytesPerPixel, Nat.mul_add, ← inductionHypothesis later, ← first]
    rfl

namespace Layer

variable {layer : Layer}

/-- The resolutions of all channels of an accepted layer say how many bytes its window has. -/
theorem resolvedBytes_eq_ok_bytesIn (accepted : layer.Accepted)
    (narrow : layer.window.size.x.toNat < 0x80000000)
    (short : layer.window.size.y.toNat < 0x80000000) (countable : layer.channels.Countable) :
    layer.channels.resolvedBytes layer.window.size =
      .ok (layer.channels.bytesIn layer.window) := by
  have each : ∀ channel ∈ layer.channels, (do
      let resolution ← channel.resolution layer.window.size
      return resolution.area.toNat * channel.type.byteSize) =
        Except.ok (channel.bytesIn layer.window) := by
    intro channel member
    have roomy := accepted.roomFrom channel member
    have word := countable channel member
    have divides := (Channel.dividesWindow_of_mem accepted narrow short member).height
    rw [Channel.magnitude_eq (by omega)] at divides
    rw [Channel.resolution_eq_ok roomy.columns roomy.rows, Outcome.ok_bind,
      Channel.bytesIn_eq_area_mul roomy.rows_pos narrow short divides]
    rfl
  rw [ChannelList.resolvedBytes, Outcome.mapM_eq_ok_map each]
  rfl

/-- What the size of the window of an accepted layer is. The resolutions of all channels have
areas with a total in bytes. The window has a size exactly if this total is a size, and then the
total is its size. With a sample of every channel at every pixel, the total is the area of the
window times the bytes of a pixel. The remainder that tells whether a row has samples is the
mathematical one on every row of the window, and no step on the way to the samples of the row
leaves its word. -/
theorem window_size (accepted : layer.validate = .ok ())
    (narrow : layer.window.size.x.toNat < 0x80000000)
    (short : layer.window.size.y.toNat < 0x80000000)
    (factors : ∀ channel ∈ layer.channels,
      channel.sampling.x.toNat < 0x80000000 ∧ channel.sampling.y.toNat < 0x80000000) :
    (∃ total, layer.channels.resolvedBytes layer.window.size = .ok total ∧
      (∀ size, layer.channels.byteSize layer.window = .ok size ↔
        size = total ∧ size < Size.bound) ∧
      ((∀ channel ∈ layer.channels, channel.sampling = ⟨1, 1⟩) →
        total = layer.window.size.area.toNat * layer.channels.bytesPerPixel)) ∧
    ∀ row : Int32, row.toInt ∈ layer.window.rows → ∀ channel ∈ layer.channels,
      Checked.floorRemainder row.toInt channel.sampling.y.toNat =
          .ok (row.toInt % channel.sampling.y.toNat) ∧
        Checked.samplesInRow channel row.toInt layer.window =
          Checked.ofOutcome (channel.samplesInRow row layer.window) := by
  have checked := validate_eq_ok_iff.mp accepted
  have roomy := checked.roomFrom
  have countable : layer.channels.Countable := fun channel member => (factors channel member).2
  obtain ⟨corner, found⟩ := Rectangle.exists_opposite checked.window narrow short
  refine ⟨⟨_, resolvedBytes_eq_ok_bytesIn checked narrow short countable, ?_, ?_⟩, ?_⟩
  · exact fun _ => ChannelList.byteSize_eq_ok_iff_bytesIn roomy countable found
  · intro full
    rw [ChannelList.bytesIn_eq_mul full, Pair.toNat_area narrow short]
  · intro row inside channel member
    have room := (roomy channel member).mono (Rectangle.mem_rows_iff.mp inside).1
    have word := countable channel member
    have enough := room.room word
    have positive := room.rows_pos
    have least := row.le_toInt
    have most := row.toInt_lt
    exact ⟨Checked.floorRemainder_eq_ok (by omega) (by omega) (by omega) (by omega) enough,
      Checked.samplesInRow_eq_ofOutcome room layer.window⟩

/-- A window of eight columns and six rows, with halves at every second pixel of every second row
and floats everywhere, has 216 bytes. Its row above the origin has a remainder of one. -/
theorem window_size_chroma :
    chromaLayer.channels.resolvedBytes ⟨8, 6⟩ = .ok 216 ∧
      chromaLayer.channels.byteSize chromaLayer.window = .ok 216 ∧
      Checked.floorRemainder (-1) 2 = .ok 1 := by
  obtain ⟨⟨total, resolved, exact, -⟩, rows⟩ :=
    @window_size chromaLayer rfl (by decide) (by decide) (by decide)
  have counted : total = 216 := (Except.ok.inj resolved).symm
  have chroma : { Channel.full "BY" .half with sampling := ⟨2, 2⟩ } ∈ chromaLayer.channels :=
    List.mem_cons_self
  exact ⟨resolved.trans (congrArg _ counted), (exact 216).mpr ⟨counted.symm, by decide⟩,
    (rows (-1) (by decide) _ chroma).1⟩

end Layer

end PixelBlocks

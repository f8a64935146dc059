import Mathlib.Algebra.Order.BigOperators.Group.List
import Mathlib.Data.Nat.ModEq
import PixelBlocks.Flat
import PixelBlocks.Proofs.Layer.Factors
import PixelBlocks.Proofs.Layer.Samples

/-!
# Samples and the pixels that have them

A channel has a sample at each pixel whose coordinates its factors divide. The size of a
rectangle counts the sampled rows by their numbers, but the sampled columns by the width alone.
So it counts the samples of all pixels exactly if the columns that are left over behind full
groups of the horizontal factor have none, and too few otherwise. Rectangles of the width of
the window have no columns left over. A rectangle that is cut between two rows has the size of
both parts. If it is cut between two columns, the parts may lose samples once more.
-/

namespace PixelBlocks

namespace Rectangle

/-- The columns of a rectangle, from its first to its last. -/
def columns (rectangle : Rectangle) : List Int :=
  interval rectangle.position.x.toInt rectangle.size.x.toNat

/-- The pixels of a rectangle, row by row. -/
def pixels (rectangle : Rectangle) : List (Pair Int) :=
  rectangle.rows.flatMap fun row => rectangle.columns.map fun column => ⟨column, row⟩

/-- A rectangle is cut between two of its rows, or at one of its edges. -/
structure CutAtRow (whole upper lower : Rectangle) : Prop where
  upperPosition : upper.position = whole.position
  upperWidth : upper.size.x = whole.size.x
  lowerLeft : lower.position.x = whole.position.x
  lowerWidth : lower.size.x = whole.size.x
  lowerTop : lower.position.y.toInt = whole.position.y.toInt + upper.size.y.toNat
  heights : upper.size.y.toNat + lower.size.y.toNat = whole.size.y.toNat

/-- A rectangle is cut between two of its columns, or at one of its edges. -/
structure CutAtColumn (whole left right : Rectangle) : Prop where
  leftPosition : left.position = whole.position
  leftHeight : left.size.y = whole.size.y
  rightTop : right.position.y = whole.position.y
  rightHeight : right.size.y = whole.size.y
  rightLeft : right.position.x.toInt = whole.position.x.toInt + left.size.x.toNat
  widths : left.size.x.toNat + right.size.x.toNat = whole.size.x.toNat

end Rectangle

open Rectangle

/-- Sums over a list are equal exactly if their terms are, if none is larger on one side. -/
theorem sum_map_eq_iff_of_le {Term : Type} {terms : List Term} {lower upper : Term → Nat}
    (each : ∀ term ∈ terms, lower term ≤ upper term) :
    (terms.map lower).sum = (terms.map upper).sum ↔ ∀ term ∈ terms, lower term = upper term := by
  constructor
  · intro same term member
    by_contra different
    have less := List.sum_lt_sum lower upper each
      ⟨term, member, Nat.lt_of_le_of_ne (each term member) different⟩
    omega
  · intro same
    rw [List.map_congr_left same]

namespace Channel

variable {channel : Channel} {bounds : Rectangle} {row : Int}

/-- How many pixels of a rectangle have a sample: those with a multiple of the factor on both
axes. -/
def sampledPixels (bounds : Rectangle) (channel : Channel) : Nat :=
  bounds.pixels.countP fun pixel =>
    (channel.sampling.x.toNat : Int) ∣ pixel.x ∧ (channel.sampling.y.toNat : Int) ∣ pixel.y

/-- Some row of a rectangle has samples. -/
def SamplesRow (bounds : Rectangle) (channel : Channel) : Prop :=
  ∃ row ∈ bounds.rows, (channel.sampling.y.toNat : Int) ∣ row

/-- The columns behind the last full group of the horizontal factor have no samples. -/
def NoneLeftOver (bounds : Rectangle) (channel : Channel) : Prop :=
  ∀ column : Int,
    bounds.position.x.toInt +
      (bounds.size.x.toNat / channel.sampling.x.toNat * channel.sampling.x.toNat : Nat) ≤ column →
    column < bounds.position.x.toInt + bounds.size.x.toNat →
    ¬ (channel.sampling.x.toNat : Int) ∣ column

/-- The sampled pixels are the sampled columns of the sampled rows. -/
theorem sampledPixels_eq (bounds : Rectangle) (channel : Channel) :
    channel.sampledPixels bounds =
      multiples channel.sampling.y.toNat bounds.position.y.toInt bounds.size.y.toNat *
        multiples channel.sampling.x.toNat bounds.position.x.toInt bounds.size.x.toNat := by
  have inRow : ∀ row : Int,
      (bounds.columns.map fun column => (⟨column, row⟩ : Pair Int)).countP (fun pixel =>
        (channel.sampling.x.toNat : Int) ∣ pixel.x ∧
          (channel.sampling.y.toNat : Int) ∣ pixel.y) =
      if (channel.sampling.y.toNat : Int) ∣ row then
        multiples channel.sampling.x.toNat bounds.position.x.toInt bounds.size.x.toNat
      else 0 := by
    intro row
    rw [List.countP_map]
    by_cases sampled : (channel.sampling.y.toNat : Int) ∣ row
    · simp [sampled, multiples, columns, Function.comp_def]
    · simp [sampled, Function.comp_def]
  rw [sampledPixels, pixels, List.countP_flatMap]
  simp only [Function.comp_def, inRow]
  rw [sum_map_ite_eq_countP_mul, rows_eq_interval]
  rfl

/-- No row has samples exactly if the vertical factor has no multiple among the rows. -/
theorem not_samplesRow_iff :
    ¬ channel.SamplesRow bounds ↔
      multiples channel.sampling.y.toNat bounds.position.y.toInt bounds.size.y.toNat = 0 := by
  rw [multiples_eq_zero_iff, SamplesRow, rows_eq_interval]
  simp only [mem_interval_iff, not_exists, not_and, and_imp]

/-- The quotient of the width counts the sampled columns exactly if none is left over. -/
theorem noneLeftOver_iff (positive : 0 < channel.sampling.x.toNat) :
    channel.NoneLeftOver bounds ↔
      bounds.size.x.toNat / channel.sampling.x.toNat =
        multiples channel.sampling.x.toNat bounds.position.x.toInt bounds.size.x.toNat := by
  have whole : bounds.position.x.toInt + bounds.size.x.toNat = bounds.position.x.toInt +
      (bounds.size.x.toNat / channel.sampling.x.toNat * channel.sampling.x.toNat : Nat) +
      (bounds.size.x.toNat % channel.sampling.x.toNat : Nat) := by
    have split := Nat.div_add_mod bounds.size.x.toNat channel.sampling.x.toNat
    rw [Nat.mul_comm] at split
    omega
  rw [multiples_eq_div_add positive, left_eq_add, multiples_eq_zero_iff, NoneLeftOver, whole]

/-- Rectangles with as many sampled rows have as many bytes exactly if as many columns are
counted, or if no row is sampled. -/
theorem rows_mul_eq_iff {first second : Nat} :
    multiples channel.sampling.y.toNat bounds.position.y.toInt bounds.size.y.toNat *
        (first * channel.type.byteSize) =
      multiples channel.sampling.y.toNat bounds.position.y.toInt bounds.size.y.toNat *
        (second * channel.type.byteSize) ↔ (channel.SamplesRow bounds → first = second) := by
  have filled : channel.type.byteSize ≠ 0 := Nat.ne_of_gt channel.type.byteSize_pos
  rw [mul_eq_mul_left_iff, Nat.mul_left_inj filled, ← not_samplesRow_iff, or_comm,
    ← imp_iff_not_or]

/-- The bytes of the sampled pixels, counted by rows and columns. -/
theorem byteSize_mul_sampledPixels (bounds : Rectangle) (channel : Channel) :
    channel.type.byteSize * channel.sampledPixels bounds =
      multiples channel.sampling.y.toNat bounds.position.y.toInt bounds.size.y.toNat *
        (multiples channel.sampling.x.toNat bounds.position.x.toInt bounds.size.x.toNat *
          channel.type.byteSize) := by
  rw [sampledPixels_eq, Nat.mul_left_comm, Nat.mul_comm channel.type.byteSize]

/-- The bytes that a rectangle has for a channel are not more than those of its sampled
pixels. -/
theorem bytesIn_le (positive : 0 < channel.sampling.x.toNat) :
    channel.bytesIn bounds ≤ channel.type.byteSize * channel.sampledPixels bounds := by
  have fewer : bounds.size.x.toNat / channel.sampling.x.toNat ≤
      multiples channel.sampling.x.toNat bounds.position.x.toInt bounds.size.x.toNat := by
    rw [multiples_eq_div_add positive]
    exact Nat.le_add_right _ _
  rw [byteSize_mul_sampledPixels, bytesIn]
  exact Nat.mul_le_mul_left _ (Nat.mul_le_mul_right _ fewer)

/-- They are exactly those if there are no samples at all, or none in the columns that are left
over. -/
theorem bytesIn_eq_iff (positive : 0 < channel.sampling.x.toNat) :
    channel.bytesIn bounds = channel.type.byteSize * channel.sampledPixels bounds ↔
      (channel.SamplesRow bounds → channel.NoneLeftOver bounds) := by
  rw [byteSize_mul_sampledPixels, bytesIn, rows_mul_eq_iff, noneLeftOver_iff positive]

/-- A width that the factor divides leaves no columns over. -/
theorem noneLeftOver_of_dvd (divides : channel.sampling.x.toNat ∣ bounds.size.x.toNat) :
    channel.NoneLeftOver bounds := by
  intro column least most
  rw [Nat.div_mul_cancel divides] at least
  omega

end Channel

namespace ChannelList

variable {channels : ChannelList} {bounds : Rectangle}

/-- The bytes of the samples of all pixels of a rectangle. -/
def sampledBytes (channels : ChannelList) (bounds : Rectangle) : Nat :=
  (channels.map fun channel => channel.type.byteSize * channel.sampledPixels bounds).sum

/-- The bytes that a rectangle has are not more than those of the samples of its pixels. -/
theorem bytesIn_le (positive : ∀ channel ∈ channels, 0 < channel.sampling.x.toNat) :
    channels.bytesIn bounds ≤ channels.sampledBytes bounds :=
  List.sum_le_sum fun channel member => Channel.bytesIn_le (positive channel member)

/-- They are exactly those if no channel has samples in columns that are left over. -/
theorem bytesIn_eq_iff (positive : ∀ channel ∈ channels, 0 < channel.sampling.x.toNat) :
    channels.bytesIn bounds = channels.sampledBytes bounds ↔
      ∀ channel ∈ channels, channel.SamplesRow bounds → channel.NoneLeftOver bounds := by
  rw [bytesIn, sampledBytes, sum_map_eq_iff_of_le fun channel member =>
    Channel.bytesIn_le (positive channel member)]
  exact forall₂_congr fun channel member => Channel.bytesIn_eq_iff (positive channel member)

end ChannelList

section Cuts

variable {channel : Channel} {channels : ChannelList}
variable {whole upper lower left right : Rectangle}

/-- Both parts of a rectangle that is cut between two rows have together what it has for a
channel. -/
theorem Channel.bytesIn_cutAtRow (cut : CutAtRow whole upper lower) :
    channel.bytesIn upper + channel.bytesIn lower = channel.bytesIn whole := by
  rw [bytesIn, bytesIn, bytesIn, cut.upperPosition, cut.upperWidth, cut.lowerWidth, cut.lowerTop,
    ← cut.heights, multiples_add, Nat.add_mul]

/-- They have the same for all channels, too. -/
theorem ChannelList.bytesIn_cutAtRow (cut : CutAtRow whole upper lower) :
    channels.bytesIn upper + channels.bytesIn lower = channels.bytesIn whole := by
  rw [bytesIn, bytesIn, bytesIn, ← List.sum_map_add]
  simp only [Channel.bytesIn_cutAtRow cut]

/-- If a rectangle is cut between two columns, its parts have as many bytes for a channel as the
quotients of their widths say. -/
theorem Channel.bytesIn_cutAtColumn (cut : CutAtColumn whole left right) :
    channel.bytesIn left + channel.bytesIn right =
      multiples channel.sampling.y.toNat whole.position.y.toInt whole.size.y.toNat *
        ((left.size.x.toNat / channel.sampling.x.toNat +
          right.size.x.toNat / channel.sampling.x.toNat) * channel.type.byteSize) := by
  rw [bytesIn, bytesIn, cut.leftPosition, cut.leftHeight, cut.rightTop, cut.rightHeight,
    Nat.add_mul, Nat.mul_add]

/-- So they have at most what the whole rectangle has. -/
theorem Channel.bytesIn_cutAtColumn_le (cut : CutAtColumn whole left right) :
    channel.bytesIn left + channel.bytesIn right ≤ channel.bytesIn whole := by
  rw [bytesIn_cutAtColumn cut, bytesIn, ← cut.widths]
  exact Nat.mul_le_mul_left _ (Nat.mul_le_mul_right _ Nat.div_add_div_le_add_div)

/-- They have just that if what is left over of both widths is no full group. -/
theorem Channel.bytesIn_cutAtColumn_eq_iff (positive : 0 < channel.sampling.x.toNat)
    (cut : CutAtColumn whole left right) :
    channel.bytesIn left + channel.bytesIn right = channel.bytesIn whole ↔
      (channel.SamplesRow whole →
        left.size.x.toNat % channel.sampling.x.toNat +
          right.size.x.toNat % channel.sampling.x.toNat < channel.sampling.x.toNat) := by
  have exact : left.size.x.toNat / channel.sampling.x.toNat +
      right.size.x.toNat / channel.sampling.x.toNat =
        (left.size.x.toNat + right.size.x.toNat) / channel.sampling.x.toNat ↔
      left.size.x.toNat % channel.sampling.x.toNat +
        right.size.x.toNat % channel.sampling.x.toNat < channel.sampling.x.toNat := by
    rw [Nat.add_div positive]
    split <;> omega
  rw [bytesIn_cutAtColumn cut, bytesIn, rows_mul_eq_iff, ← cut.widths, exact]

/-- Both parts of a rectangle that is cut between two rows lie within it. -/
theorem Rectangle.CutAtRow.within (cut : CutAtRow whole upper lower) :
    upper.Within whole ∧ lower.Within whole := by
  obtain ⟨start, upperWidth, left, lowerWidth, top, heights⟩ := cut
  constructor
  · constructor <;> simp only [start, upperWidth] <;> omega
  · constructor <;> simp only [left, lowerWidth, top] <;> omega

/-- Both parts of a rectangle that is cut between two columns lie within it. -/
theorem Rectangle.CutAtColumn.within (cut : CutAtColumn whole left right) :
    left.Within whole ∧ right.Within whole := by
  obtain ⟨start, leftHeight, top, rightHeight, side, widths⟩ := cut
  constructor
  · constructor <;> simp only [start, leftHeight] <;> omega
  · constructor <;> simp only [top, rightHeight, side] <;> omega

/-- Summed over all channels, the parts have at most what the whole rectangle has. -/
theorem ChannelList.bytesIn_cutAtColumn_le (cut : CutAtColumn whole left right) :
    channels.bytesIn left + channels.bytesIn right ≤ channels.bytesIn whole := by
  rw [bytesIn, bytesIn, bytesIn, ← List.sum_map_add]
  exact List.sum_le_sum fun channel _ => Channel.bytesIn_cutAtColumn_le cut

/-- They have just that if no channel with sampled rows has a full group in what is left over of
the two widths. -/
theorem ChannelList.bytesIn_cutAtColumn_eq_iff
    (positive : ∀ channel ∈ channels, 0 < channel.sampling.x.toNat)
    (cut : CutAtColumn whole left right) :
    channels.bytesIn left + channels.bytesIn right = channels.bytesIn whole ↔
      ∀ channel ∈ channels, channel.SamplesRow whole →
        left.size.x.toNat % channel.sampling.x.toNat +
          right.size.x.toNat % channel.sampling.x.toNat < channel.sampling.x.toNat := by
  rw [bytesIn, bytesIn, bytesIn, ← List.sum_map_add, sum_map_eq_iff_of_le fun channel _ =>
    Channel.bytesIn_cutAtColumn_le cut]
  exact forall₂_congr fun channel member =>
    Channel.bytesIn_cutAtColumn_eq_iff (positive channel member) cut

end Cuts

namespace Layer

variable {layer : Layer} {bounds part upper lower left right : Rectangle} {size : Nat}

/-- A part of a sized rectangle has a size if it has not more bytes. -/
theorem Accepted.byteSize_of_within (accepted : layer.Accepted)
    (countable : layer.channels.Countable) (inside : layer.window.contains bounds = .ok true)
    (sized : layer.channels.byteSize bounds = .ok size) (within : part.Within bounds)
    (fewer : layer.channels.bytesIn part ≤ size) :
    layer.channels.byteSize part = .ok (layer.channels.bytesIn part) := by
  obtain ⟨outside, boundsWithin⟩ := contains_eq_ok_true_iff_within.mp inside
  obtain ⟨roomy, corner, found⟩ := accepted.roomFrom_of_contains
    (contains_eq_ok_true_iff_within.mpr ⟨outside, within.trans boundsWithin⟩)
  have small := ChannelList.byteSize_lt sized
  exact (ChannelList.byteSize_eq_ok_iff_bytesIn roomy countable found).mpr ⟨rfl, by omega⟩

/-- The parts of a sized rectangle have sizes that add up to its own, if it is cut between two
rows. -/
theorem exists_byteSize_cutAtRow (accepted : layer.Accepted)
    (countable : layer.channels.Countable) (inside : layer.window.contains bounds = .ok true)
    (sized : layer.channels.byteSize bounds = .ok size) (cut : CutAtRow bounds upper lower) :
    ∃ above below, layer.channels.byteSize upper = .ok above ∧
      layer.channels.byteSize lower = .ok below ∧ above + below = size := by
  have sum : layer.channels.bytesIn upper + layer.channels.bytesIn lower = size := by
    have roomy := (accepted.roomFrom_of_contains inside).1
    rw [(ChannelList.eq_bytesIn_of_byteSize sized roomy countable).1]
    exact ChannelList.bytesIn_cutAtRow cut
  obtain ⟨upperWithin, lowerWithin⟩ := cut.within
  exact ⟨_, _, accepted.byteSize_of_within countable inside sized upperWithin (by omega),
    accepted.byteSize_of_within countable inside sized lowerWithin (by omega), sum⟩

/-- The parts of a sized rectangle have sizes that add up to at most its own, if it is cut
between two columns, and to just this if no channel has a full group in what is left over. -/
theorem exists_byteSize_cutAtColumn (accepted : layer.Accepted)
    (countable : layer.channels.Countable) (inside : layer.window.contains bounds = .ok true)
    (sized : layer.channels.byteSize bounds = .ok size) (cut : CutAtColumn bounds left right) :
    ∃ before behind, layer.channels.byteSize left = .ok before ∧
      layer.channels.byteSize right = .ok behind ∧ before + behind ≤ size ∧
      (before + behind = size ↔ ∀ channel ∈ layer.channels, channel.SamplesRow bounds →
        left.size.x.toNat % channel.sampling.x.toNat +
          right.size.x.toNat % channel.sampling.x.toNat < channel.sampling.x.toNat) := by
  have roomy := (accepted.roomFrom_of_contains inside).1
  have counted := (ChannelList.eq_bytesIn_of_byteSize sized roomy countable).1
  have fewer : layer.channels.bytesIn left + layer.channels.bytesIn right ≤ size := by
    rw [counted]
    exact ChannelList.bytesIn_cutAtColumn_le cut
  obtain ⟨leftWithin, rightWithin⟩ := cut.within
  refine ⟨_, _, accepted.byteSize_of_within countable inside sized leftWithin (by omega),
    accepted.byteSize_of_within countable inside sized rightWithin (by omega), fewer, ?_⟩
  rw [counted]
  exact ChannelList.bytesIn_cutAtColumn_eq_iff
    (fun channel member => (roomy channel member).columns_pos) cut

/-- Rectangles of the width of the window leave no columns over: every factor divides it. -/
theorem Accepted.noneLeftOver (accepted : layer.Accepted)
    (inside : layer.window.contains bounds = .ok true) (wide : bounds.size.x = layer.window.size.x)
    {channel : Channel} (member : channel ∈ layer.channels)
    (word : channel.sampling.x.toNat < 0x80000000) : channel.NoneLeftOver bounds := by
  obtain ⟨⟨corner, found⟩, -⟩ := contains_eq_ok_true_iff_within.mp inside
  obtain ⟨⟨narrow, short⟩, -⟩ := opposite_eq_ok_iff.mp found
  have divides := (Channel.dividesWindow_of_mem accepted narrow short member).width
  rw [Channel.magnitude_eq (by omega)] at divides
  apply Channel.noneLeftOver_of_dvd
  rwa [wide]

/-- What the size of a rectangle within the window of an accepted layer says about the samples
of its pixels. It counts all of them exactly if no channel with sampled rows has samples in the
columns that are left over behind full groups of its horizontal factor, and otherwise it counts
too few. In rectangles of the width of the window it counts all. The sizes of the two parts of a
rectangle add up to its size if it is cut between two rows. If it is cut between two columns, they
do so exactly if, for every channel with sampled rows, what is left over of the two widths is
less than a group, and otherwise they add up to less. -/
theorem sampled_pixels (accepted : layer.validate = .ok ())
    (factors : ∀ channel ∈ layer.channels,
      channel.sampling.x.toNat < 0x80000000 ∧ channel.sampling.y.toNat < 0x80000000)
    (inside : layer.window.contains bounds = .ok true)
    (sized : layer.channels.byteSize bounds = .ok size) :
    size ≤ layer.channels.sampledBytes bounds ∧
    (size = layer.channels.sampledBytes bounds ↔
      ∀ channel ∈ layer.channels, channel.SamplesRow bounds → channel.NoneLeftOver bounds) ∧
    (bounds.size.x = layer.window.size.x → size = layer.channels.sampledBytes bounds) ∧
    (∀ upper lower, CutAtRow bounds upper lower →
      ∃ above below, layer.channels.byteSize upper = .ok above ∧
        layer.channels.byteSize lower = .ok below ∧ above + below = size) ∧
    ∀ left right, CutAtColumn bounds left right →
      ∃ before behind, layer.channels.byteSize left = .ok before ∧
        layer.channels.byteSize right = .ok behind ∧ before + behind ≤ size ∧
        (before + behind = size ↔ ∀ channel ∈ layer.channels, channel.SamplesRow bounds →
          left.size.x.toNat % channel.sampling.x.toNat +
            right.size.x.toNat % channel.sampling.x.toNat < channel.sampling.x.toNat) := by
  have checked := validate_eq_ok_iff.mp accepted
  have countable : layer.channels.Countable := fun channel member => (factors channel member).2
  obtain ⟨roomy, corner, found⟩ := checked.roomFrom_of_contains inside
  have positive : ∀ channel ∈ layer.channels, 0 < channel.sampling.x.toNat :=
    fun channel member => (roomy channel member).columns_pos
  obtain ⟨counted, -⟩ := (ChannelList.byteSize_eq_ok_iff_bytesIn roomy countable found).mp sized
  have exact := @ChannelList.bytesIn_eq_iff layer.channels bounds positive
  refine ⟨?_, ?_, ?_, ?_, ?_⟩
  · rw [counted]
    exact ChannelList.bytesIn_le positive
  · rw [counted]
    exact exact
  · intro wide
    rw [counted]
    exact exact.mpr fun channel member _ =>
      checked.noneLeftOver inside wide member (factors channel member).1
  · intro upper lower cut
    exact exists_byteSize_cutAtRow checked countable inside sized cut
  · intro left right cut
    exact exists_byteSize_cutAtColumn checked countable inside sized cut

/-- In a rectangle of four columns, which starts at odd coordinates, all samples are counted, and
none is lost between its first row and the others. -/
theorem sampled_pixels_chroma :
    52 = chromaLayer.channels.sampledBytes ⟨⟨-3, -1⟩, ⟨4, 3⟩⟩ ∧
      ∃ above below, chromaLayer.channels.byteSize ⟨⟨-3, -1⟩, ⟨4, 1⟩⟩ = .ok above ∧
        chromaLayer.channels.byteSize ⟨⟨-3, 0⟩, ⟨4, 2⟩⟩ = .ok below ∧ above + below = 52 := by
  have sized : chromaLayer.channels.byteSize ⟨⟨-3, -1⟩, ⟨4, 3⟩⟩ = .ok 52 := rfl
  have divides : ∀ channel ∈ chromaLayer.channels, channel.sampling.x.toNat ∣ 4 := by decide
  have cut : CutAtRow ⟨⟨-3, -1⟩, ⟨4, 3⟩⟩ ⟨⟨-3, -1⟩, ⟨4, 1⟩⟩ ⟨⟨-3, 0⟩, ⟨4, 2⟩⟩ :=
    ⟨rfl, rfl, rfl, rfl, rfl, rfl⟩
  obtain ⟨-, exact, -, rows, -⟩ := @sampled_pixels chromaLayer _ _ rfl (by decide) rfl sized
  refine ⟨exact.mpr fun channel member _ => ?_, rows _ _ cut⟩
  exact Channel.noneLeftOver_of_dvd (divides channel member)

/-- A tile of one pixel at the origin is accepted. Its half is not counted, and neither is it in
the next tile, although it is in the rectangle of both. -/
theorem sampled_pixels_lost :
    let both : Rectangle := ⟨⟨0, 0⟩, ⟨2, 1⟩⟩
    let first : Rectangle := ⟨⟨0, 0⟩, ⟨1, 1⟩⟩
    let second : Rectangle := ⟨⟨1, 0⟩, ⟨1, 1⟩⟩
    chromaLayer.validate = .ok () ∧ chromaLayer.partition = .scanLines ∧
      (FlatCompressor.build Defaults.initial chromaLayer >>= fun compressor =>
        compressor.boundsOf (.tile first)) = .ok first ∧
      chromaLayer.channels.byteSize first = .ok 4 ∧
      chromaLayer.channels.sampledBytes first = 6 ∧
      chromaLayer.channels.byteSize both = .ok 10 ∧
      chromaLayer.channels.byteSize second = .ok 4 :=
  ⟨rfl, rfl, rfl, rfl, rfl, rfl, rfl⟩

end Layer

end PixelBlocks

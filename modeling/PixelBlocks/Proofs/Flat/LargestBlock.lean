import PixelBlocks.Proofs.Flat.Corruption
import PixelBlocks.Proofs.Layer.Resolution

/-!
# The largest block of a layer

The size of a largest block is taken at the corner of the window, where the first row is a
multiple of every vertical factor. A block elsewhere may start between two multiples, so it has
not more sampled rows, and it is not wider. Hence it has not more bytes, and neither has what
is returned for it. An instance also takes full rows of a layer of tiles. The size of a tile says
nothing about them: they are limited by rows at the corner of the window.
-/

namespace PixelBlocks

variable {channel : Channel} {channels : ChannelList} {bounds largest : Rectangle}

/-- No rectangle of at most the same width and height has more bytes for a channel than one that
starts at a multiple of the vertical factor. -/
theorem Channel.bytesIn_le_bytesIn (positive : 0 < channel.sampling.y.toNat)
    (aligned : (channel.sampling.y.toNat : Int) ∣ largest.position.y.toInt)
    (narrow : bounds.size.x.toNat ≤ largest.size.x.toNat)
    (short : bounds.size.y.toNat ≤ largest.size.y.toNat) :
    channel.bytesIn bounds ≤ channel.bytesIn largest := by
  have rows := multiples_le positive aligned short bounds.position.y.toInt
  have columns : bounds.size.x.toNat / channel.sampling.x.toNat ≤
      largest.size.x.toNat / channel.sampling.x.toNat := Nat.div_le_div_right narrow
  exact Nat.mul_le_mul rows (Nat.mul_le_mul_right _ columns)

/-- A pixel of at least one channel has bytes. -/
theorem ChannelList.bytesPerPixel_pos (some : channels ≠ []) : 0 < channels.bytesPerPixel := by
  cases channels with
  | nil => exact absurd rfl some
  | cons channel others => exact Nat.add_pos_left channel.type.byteSize_pos _

namespace Layer

variable {layer : Layer} {most : Pair UInt64} {limit size : Nat}

/-- Largest blocks have rows: at least one scan line, or those of a tile that is not empty. -/
theorem Accepted.largestBlock_rows_pos (accepted : layer.Accepted) :
    0 < layer.largestBlock.y.toNat := by
  have checked := accepted.partition
  cases partition : layer.partition with
  | scanLines =>
    simp only [largestBlock, partition, Method.toNat_ofNat_scanLines]
    exact layer.method.scanLines_bounds.1
  | tiles tile =>
    rw [validatePartition, partition] at checked
    obtain ⟨filled, -⟩ := Outcome.guard_eq_ok_iff.mp checked
    simp only [largestBlock, partition]
    refine Nat.pos_of_ne_zero fun none => filled ?_
    have zero : tile.y = 0 := UInt64.toNat_inj.mp none
    rw [Pair.area, zero, UInt64.mul_zero]

/-- Layers of tiles have a sample of every channel at every pixel. -/
theorem Accepted.full_of_tiles (accepted : layer.Accepted) (tiled : layer.partition ≠ .scanLines) :
    ∀ channel ∈ layer.channels, channel.sampling = ⟨1, 1⟩ := by
  intro channel member
  have checked := ChannelList.validate_of_mem accepted.channels channel member
  refine (Channel.validate_eq_ok_iff.mp checked).2.1 ?_
  simp [allowsSampling, tiled]

/-- A rectangle in the window that is not larger than one at its corner has a size, and this is
not larger either. -/
theorem Accepted.exists_byteSize_le (accepted : layer.Accepted)
    (inside : layer.window.contains bounds = .ok true)
    (sized : layer.channels.byteSize ⟨layer.window.position, most⟩ = .ok limit)
    (rows : 0 < most.y.toNat) (narrow : bounds.size.x.toNat ≤ most.x.toNat)
    (short : bounds.size.y.toNat ≤ most.y.toNat) :
    ∃ size, layer.channels.byteSize bounds = .ok size ∧ size ≤ limit := by
  have countable := ChannelList.countable_of_byteSize sized rows
  obtain ⟨roomy, corner, found⟩ := accepted.roomFrom_of_contains inside
  obtain ⟨rfl, small⟩ := ChannelList.eq_bytesIn_of_byteSize sized accepted.roomFrom countable
  have less : layer.channels.bytesIn bounds ≤
      layer.channels.bytesIn ⟨layer.window.position, most⟩ := by
    refine List.sum_le_sum fun channel member => ?_
    have word := countable channel member
    -- the window starts at a multiple, where as many rows as these have the most sampled ones
    have aligned := Channel.dvd_start_of_validate
      (ChannelList.validate_of_mem accepted.channels channel member) (by omega)
    exact Channel.bytesIn_le_bytesIn (roomy channel member).rows_pos aligned narrow short
  exact ⟨_, (ChannelList.byteSize_eq_ok_iff_bytesIn roomy countable found).mpr ⟨rfl, by omega⟩,
    less⟩

end Layer

namespace FlatCompressor

open Layer

variable {layer : Layer} {compressor : FlatCompressor} {place : Place} {limit : Nat}

/-- No block at a place has more than a number of bytes, and neither has a result for it. -/
structure AtMost (compressor : FlatCompressor) (place : Place) (limit : Nat) : Prop where
  size : ∀ bounds, compressor.boundsOf place = .ok bounds →
    ∃ size, compressor.channels.byteSize bounds = .ok size ∧ size ≤ limit
  stored : ∀ coders raw stored,
    (compressor.compress coders raw place).1 = .ok stored → stored.length ≤ limit
  restored : ∀ coders stored raw,
    (compressor.uncompress coders stored place).1 = .ok raw → raw.length ≤ limit

/-- The sizes of blocks limit the results: a stored block is not longer than its raw form. -/
theorem atMost_of_size (small : ∀ bounds, compressor.boundsOf place = .ok bounds →
      ∃ size, compressor.channels.byteSize bounds = .ok size ∧ size ≤ limit) :
    compressor.AtMost place limit := by
  refine ⟨small, ?_, ?_⟩
  · intro coders raw stored compressed
    obtain ⟨bounds, placed, sized, form, -, rfl⟩ := compress_eq_ok_iff.mp compressed
    obtain ⟨size, sizedAgain, fewer⟩ := small bounds placed
    cases sized.symm.trans sizedAgain
    exact (length_shorterForm_le form raw).trans fewer
  · intro coders stored raw uncompressed
    rw [uncompress_fst] at uncompressed
    obtain ⟨bounds, placed, uncompressed⟩ := Outcome.bind_eq_ok_iff.mp uncompressed
    obtain ⟨expected, sized, found⟩ := Outcome.bind_eq_ok_iff.mp uncompressed
    obtain ⟨size, sizedAgain, fewer⟩ := small bounds placed
    cases sized.symm.trans sizedAgain
    rw [length_rawForm found]
    exact fewer

/-- Full rows of the window are limited by as many rows at its corner. -/
theorem Serves.atMost_of_rows (serves : Serves layer compressor)
    (sized : layer.channels.byteSize ⟨layer.window.position,
      ⟨layer.window.size.x, UInt64.ofNat layer.method.scanLines⟩⟩ = .ok limit) (row : Int32) :
    compressor.AtMost (.scanLines row) limit := by
  have height := layer.method.toNat_ofNat_scanLines
  refine atMost_of_size fun bounds placed => ?_
  obtain ⟨block, inside⟩ := serves.hasBlock_of_boundsOf placed
  rw [serves.channels]
  refine serves.accepted.exists_byteSize_le inside sized ?_ ?_ ?_
  · exact Nat.lt_of_lt_of_eq layer.method.scanLines_bounds.1 height.symm
  · exact Nat.le_of_eq (congrArg UInt64.toNat block.width)
  · rw [height, block.height]
    exact Nat.min_le_right _ _

/-- Tiles are limited by a largest block at the corner of the window. -/
theorem Serves.atMost_of_tile (serves : Serves layer compressor)
    (sized : layer.largestBlockBytes = .ok limit) (tile : Rectangle) :
    compressor.AtMost (.tile tile) limit := by
  refine atMost_of_size fun bounds placed => ?_
  obtain ⟨⟨rfl, isTile⟩, inside⟩ := serves.hasBlock_of_boundsOf placed
  rw [serves.channels]
  exact serves.accepted.exists_byteSize_le inside sized serves.accepted.largestBlock_rows_pos
    isTile.narrow isTile.short

/-- What the size of a largest block says about the blocks of a layer. It limits the sizes of all
tiles that an instance accepts, those of blocks of scan lines unless the layer has tiles, and with
them the lengths of all results. Whether or not the layer has tiles, blocks of scan lines are
limited by as many full rows at the corner of the window, if these have a size. In a layer of
tiles the size of a block exceeds that of a largest block exactly if it has more pixels. -/
theorem largest_block (made : MadeFor layer compressor)
    (sized : layer.largestBlockBytes = .ok limit) :
    (∀ tile, compressor.AtMost (.tile tile) limit) ∧
    (layer.partition = .scanLines → ∀ row, compressor.AtMost (.scanLines row) limit) ∧
    (∀ rows, layer.channels.byteSize ⟨layer.window.position,
        ⟨layer.window.size.x, UInt64.ofNat layer.method.scanLines⟩⟩ = .ok rows →
      ∀ row, compressor.AtMost (.scanLines row) rows) ∧
    (layer.partition ≠ .scanLines → ∀ place bounds size,
      compressor.boundsOf place = .ok bounds → layer.channels.byteSize bounds = .ok size →
        (limit < size ↔ layer.largestBlock.x.toNat * layer.largestBlock.y.toNat <
          bounds.size.x.toNat * bounds.size.y.toNat)) := by
  have serves := made.serves
  refine ⟨serves.atMost_of_tile sized, ?_, fun rows => serves.atMost_of_rows, ?_⟩
  · intro rows
    rw [largestBlockBytes, largestBlock, rows] at sized
    exact serves.atMost_of_rows sized
  -- without subsampling both sizes are areas times the bytes of a pixel
  · intro tiled place bounds size placed sizedBounds
    have full := serves.accepted.full_of_tiles tiled
    have filled := ChannelList.bytesPerPixel_pos serves.accepted.channels_ne_nil
    have countable := ChannelList.countable_of_byteSize sized serves.accepted.largestBlock_rows_pos
    have roomy := serves.roomFrom placed
    rw [serves.channels] at roomy
    obtain ⟨rfl, -⟩ := ChannelList.eq_bytesIn_of_byteSize sizedBounds roomy countable
    obtain ⟨rfl, -⟩ :=
      ChannelList.eq_bytesIn_of_byteSize sized serves.accepted.roomFrom countable
    rw [ChannelList.bytesIn_eq_mul full, ChannelList.bytesIn_eq_mul full,
      Nat.mul_lt_mul_right filled]

/-- Sixteen rows at the corner of a subsampled window have 448 bytes, which limits the four rows
at its end and any tile. A tile of sixteen pixels has 96 bytes, and what has more is larger. -/
theorem largest_block_rows :
    rowWriter.AtMost (.scanLines 14) 448 ∧ rowWriter.AtMost (.tile ⟨⟨-3, 1⟩, ⟨3, 5⟩⟩) 448 ∧
      tileWriter.AtMost (.tile ⟨⟨-2, -1⟩, ⟨4, 4⟩⟩) 96 ∧ (96 < 378 ↔ 4 * 4 < 9 * 7) := by
  have rowsMade : MadeFor sampledLayer rowWriter := ⟨Defaults.initial, .initial, rfl⟩
  have tilesMade : MadeFor tiledLayer tileWriter := ⟨Defaults.initial, .initial, rfl⟩
  have rowsSized : sampledLayer.largestBlockBytes = .ok 448 := rfl
  have tileSized : tiledLayer.largestBlockBytes = .ok 96 := rfl
  obtain ⟨tiles, rows, -⟩ := largest_block rowsMade rowsSized
  obtain ⟨full, -, -, exceeds⟩ := largest_block tilesMade tileSized
  have taken : tileWriter.boundsOf (.scanLines (-3)) = .ok ⟨⟨-5, -3⟩, ⟨9, 7⟩⟩ := rfl
  have sized : tiledLayer.channels.byteSize ⟨⟨-5, -3⟩, ⟨9, 7⟩⟩ = .ok 378 := rfl
  exact ⟨rows rfl 14, tiles _, full _, exceeds nofun _ _ _ taken sized⟩

/-- An instance for tiles of at most 96 bytes takes the seven rows of its window as one block of
378 bytes, which it also returns. -/
theorem largest_block_exceeded :
    MadeFor tiledLayer tileWriter ∧ tiledLayer.largestBlockBytes = .ok 96 ∧
      tileWriter.boundsOf (.scanLines (-3)) = .ok ⟨⟨-5, -3⟩, ⟨9, 7⟩⟩ ∧
      tiledLayer.channels.byteSize ⟨⟨-5, -3⟩, ⟨9, 7⟩⟩ = .ok 378 ∧
      (tileWriter.uncompress tileRecording.coders (List.replicate 378 0) (.scanLines (-3))).1 =
        .ok (List.replicate 378 0) ∧
      ¬ tileWriter.AtMost (.scanLines (-3)) 96 := by
  have sized : tileWriter.channels.byteSize ⟨⟨-5, -3⟩, ⟨9, 7⟩⟩ =
      .ok (List.replicate 378 0 : Bytes).length := by
    rw [List.length_replicate]
    rfl
  have taken : tileWriter.boundsOf (.scanLines (-3)) = .ok ⟨⟨-5, -3⟩, ⟨9, 7⟩⟩ := rfl
  have returned := @uncompress_raw tileRecording.coders _ _ _ _ taken sized rfl
  refine ⟨⟨Defaults.initial, .initial, rfl⟩, rfl, taken, rfl, returned, fun small => ?_⟩
  have fewer := small.restored _ _ _ returned
  rw [List.length_replicate] at fewer
  omega

end FlatCompressor

end PixelBlocks

import PixelBlocks.Proofs.Coders
import PixelBlocks.Proofs.Flat.Forms
import PixelBlocks.Proofs.Layer.ByteSize

/-!
# Blocks come back

A block that one instance of a layer compressed is decompressed by any other instance
of this layer. Without rounding it comes back exactly. With rounding the floats of a
block that got shorter come back rounded, and then for good.
-/

namespace PixelBlocks.FlatCompressor

/-- A block that its own form decodes to is returned, whatever is stored. -/
theorem returned_self (form : Option Bytes) (raw : Bytes) : returned form raw raw = raw := by
  unfold returned
  split
  · exact ite_self raw
  · rfl

/-- A form that carries a block is stored and read back by instances of one layer. -/
theorem roundTrip_of_carries {coders : Coders} {layer : Layer} {writer reader : FlatCompressor}
    (writes : Serves layer writer) (reads : Serves layer reader)
    (implemented : layer.method.isImplemented = true)
    {place : Place} {bounds : Rectangle} (placed : writer.boundsOf place = .ok bounds)
    {raw restored : Bytes} (sized : layer.channels.byteSize bounds = .ok raw.length)
    {form : Option Bytes} (carries : Carries coders writer reader bounds raw restored form)
    (same : restored.length = raw.length) :
    (writer.compress coders raw place).1 = .ok (shorterForm form raw) ∧
      (reader.uncompress coders (shorterForm form raw) place).1 =
        .ok (returned form raw restored) := by
  have accepted : reader.boundsOf place = .ok bounds := by
    rw [← writes.boundsOf_eq reads place, placed]
  constructor
  · refine compress_eq_ok placed ?_ carries.encoded
    rw [writes.channels, sized]
  · refine uncompress_shorterForm accepted ?_ ?_ carries.decoded same
    · rw [reads.channels, sized]
    · rw [reads.method, implemented]

/-- Every method that loses nothing of the channels of a layer has a form that carries
the block back unchanged. -/
theorem exists_carries_lossless {coders : Coders} (zlib : coders.ZlibLaws)
    (frames : coders.FrameLaws) (total : coders.FrameBounds) {layer : Layer}
    {writer reader : FlatCompressor} (writes : Serves layer writer) (reads : Serves layer reader)
    (implemented : layer.method.isImplemented = true)
    (exact : ∀ channel ∈ layer.channels, layer.method.isLosslessFor channel.type = true)
    {bounds : Rectangle} {raw : Bytes} (sized : layer.channels.byteSize bounds = .ok raw.length)
    (fits : layer.method = .zstd → coders.frameBound raw.length < 0x100000000) :
    ∃ form, Carries coders writer reader bounds raw raw form := by
  have same : reader.method = writer.method := reads.method.trans writes.method.symm
  cases method : layer.method with
  | uncompressed => exact ⟨none, carries_uncompressed (writes.method.trans method)⟩
  | runLength =>
    exact ⟨_, carries_runLength (writes.method.trans method) (reads.method.trans method)⟩
  | zipLine =>
    exact ⟨_, carries_zip zlib writes.zipLevel (.inl (writes.method.trans method)) same⟩
  | zipBlock =>
    exact ⟨_, carries_zip zlib writes.zipLevel (.inr (writes.method.trans method)) same⟩
  | pxr24 =>
    have filled : writer.channels.byteSize bounds = .ok raw.length := by
      rw [writes.channels, sized]
    obtain ⟨segments, planes, stream, streamed, typed⟩ := exists_streamed coders filled
    have noFloat : ∀ segment ∈ segments, segment.type ≠ .float := by
      intro segment member float
      obtain ⟨channel, listed, type⟩ := typed segment member
      rw [writes.channels] at listed
      have kept := exact channel listed
      rw [method, type, float] at kept
      cases kept
    have decoded := streamed.decodePlanes_eq zlib writes.zipLevel
      (reads.channels.trans writes.channels.symm)
    rw [Planes.rounded_eq_self noFloat streamed.filled.symm] at decoded
    exact ⟨_, carries_planes (writes.method.trans method) (reads.method.trans method)
      streamed.encodePlanes_eq decoded⟩
  | zstd =>
    exact exists_carries_zstd frames total writes.zstdLevel (writes.method.trans method)
      (reads.method.trans method) (ChannelList.byteSize_lt sized) (fits method)
  | piz | b44 | b44a | dwaa _ | dwab _ =>
    rw [method] at implemented
    cases implemented

/-- Tiles of halves and floats in a window around the origin. -/
def tiledLayer : Layer where
  channels := [.full "A" .half, .full "Z" .float]
  method := .zstd
  window := ⟨⟨-5, -3⟩, ⟨9, 7⟩⟩
  partition := .tiles ⟨4, 4⟩
  deep := false
  zstdLevel := none

/-- An instance for tiles, with the initial defaults and used buffers. -/
def tileWriter : FlatCompressor where
  method := .zstd
  channels := tiledLayer.channels
  window := tiledLayer.window
  largest := ⟨4, 4⟩
  scanLines := 32
  zipLevel := 4
  zstdLevel := 5
  quality := Defaults.initial.quality
  buffers := ⟨[1], [2, 3]⟩

/-- An instance for tiles, made after the defaults had changed. -/
def tileReader : FlatCompressor :=
  { tileWriter with zipLevel := 9, zstdLevel := 1, buffers := .empty }

/-- A tile of sixteen pixels that are one everywhere. -/
def tileBytes : Bytes :=
  let halves : List Bytes := List.replicate 4 [0, 60]
  let floats : List Bytes := List.replicate 4 [0, 0, 128, 63]
  (List.replicate 4 (halves ++ floats).flatten).flatten

/-- The frame of the shuffled bytes of this tile. -/
def tileRecording : Coders.Recording where
  streams := .empty
  frames :=
    { entries := [(Shuffle.shuffle 4 tileBytes,
        [40, 181, 47, 253, 32, 96, 229, 0, 0, 128, 0, 0, 60, 60, 0, 0, 128, 128, 128, 128, 60, 60,
          63, 63, 63, 63, 4, 0, 192, 43, 192, 43, 41, 10, 86, 0, 22])]
      distinct := by decide
      unmarked := by decide }
  bounded := by decide

/-- Whatever the defaults were when the instances were made, a block of the size of its
place is stored in no more bytes and comes back unchanged. The methods are those that
are implemented and lose nothing of the channels. -/
theorem lossless_roundTrip {coders : Coders} (zlib : coders.ZlibLaws) (frames : coders.FrameLaws)
    (total : coders.FrameBounds) {layer : Layer} {writer reader : FlatCompressor}
    (written : MadeFor layer writer) (read : MadeFor layer reader)
    (implemented : layer.method.isImplemented = true)
    (exact : ∀ channel ∈ layer.channels, layer.method.isLosslessFor channel.type = true)
    {place : Place} {bounds : Rectangle} (placed : writer.boundsOf place = .ok bounds)
    {raw : Bytes} (sized : layer.channels.byteSize bounds = .ok raw.length)
    (fits : layer.method = .zstd → coders.frameBound raw.length < 0x100000000) :
    ∃ stored, (writer.compress coders raw place).1 = .ok stored ∧
      stored.length ≤ raw.length ∧ (reader.uncompress coders stored place).1 = .ok raw := by
  obtain ⟨form, carries⟩ := exists_carries_lossless zlib frames total written.serves read.serves
    implemented exact sized fits
  obtain ⟨stored, restored⟩ := roundTrip_of_carries written.serves read.serves implemented placed
    sized carries rfl
  rw [returned_self] at restored
  exact ⟨shorterForm form raw, stored, length_shorterForm_le form raw, restored⟩

/-- Two instances with other levels exchange a tile that crosses the origin. -/
theorem lossless_roundTrip_tile :
    ∃ stored, (tileWriter.compress tileRecording.coders tileBytes
        (.tile ⟨⟨-2, -1⟩, ⟨4, 4⟩⟩)).1 = .ok stored ∧
      stored.length ≤ tileBytes.length ∧
      (tileReader.uncompress tileRecording.coders stored (.tile ⟨⟨-2, -1⟩, ⟨4, 4⟩⟩)).1 =
        .ok tileBytes := by
  have written : MadeFor tiledLayer tileWriter := ⟨Defaults.initial, .initial, rfl⟩
  have changed : Defaults.Reachable { Defaults.initial with zip := 9, zstd := 1 } :=
    Defaults.reachable_iff_valid.mpr ⟨by decide, by decide, by decide⟩
  have read : MadeFor tiledLayer tileReader := ⟨_, changed, rfl⟩
  have placed : tileWriter.boundsOf (.tile ⟨⟨-2, -1⟩, ⟨4, 4⟩⟩) = .ok ⟨⟨-2, -1⟩, ⟨4, 4⟩⟩ := rfl
  have sized : tiledLayer.channels.byteSize ⟨⟨-2, -1⟩, ⟨4, 4⟩⟩ = .ok tileBytes.length := rfl
  have laws := tileRecording.lawful
  exact lossless_roundTrip laws.toZlibLaws laws.toFrameLaws laws.toFrameBounds written read rfl
    (by decide) placed sized (fun _ => by decide)

/-- A block of planes is stored as its stream if that is shorter, and read back rounded. It is
stored and read back as it is otherwise. -/
theorem exists_roundTrip_planes {coders : Coders} (zlib : coders.ZlibLaws) {layer : Layer}
    (method : layer.method = .pxr24) {writer reader : FlatCompressor}
    (writes : Serves layer writer) (reads : Serves layer reader)
    {place : Place} {bounds : Rectangle} (placed : writer.boundsOf place = .ok bounds)
    {raw : Bytes} (sized : layer.channels.byteSize bounds = .ok raw.length) :
    ∃ segments planes stream, Streamed coders writer bounds raw segments planes stream ∧
      (writer.compress coders raw place).1 =
        .ok (if stream.length < raw.length then stream else raw) ∧
      (reader.uncompress coders (if stream.length < raw.length then stream else raw) place).1 =
        .ok (if stream.length < raw.length then Planes.rounded segments raw else raw) := by
  have implemented : layer.method.isImplemented = true := by
    rw [method]
    rfl
  have filled : writer.channels.byteSize bounds = .ok raw.length := by
    rw [writes.channels, sized]
  obtain ⟨segments, planes, stream, streamed, -⟩ := exists_streamed coders filled
  have same : (Planes.rounded segments raw).length = raw.length := by
    rw [Planes.length_rounded, streamed.filled]
  have carries : Carries coders writer reader bounds raw (Planes.rounded segments raw)
      (some stream) :=
    carries_planes (writes.method.trans method) (reads.method.trans method)
      streamed.encodePlanes_eq
      (streamed.decodePlanes_eq zlib writes.zipLevel (reads.channels.trans writes.channels.symm))
  exact ⟨segments, planes, stream, streamed,
    roundTrip_of_carries writes reads implemented placed sized carries same⟩

/-- The planes and the stream of a block depend on the layer and the level only. -/
theorem Streamed.unique {coders : Coders} {layer : Layer} {first second : FlatCompressor}
    {bounds : Rectangle} {raw planes stream planesLater streamLater : Bytes}
    {segments segmentsLater : List Planes.Segment}
    (streamed : Streamed coders first bounds raw segments planes stream)
    (later : Streamed coders second bounds raw segmentsLater planesLater streamLater)
    (one : Serves layer first) (other : Serves layer second)
    (level : second.zipLevel = first.zipLevel) : streamLater = stream := by
  obtain ⟨found, -, encoded, deflated⟩ := streamed
  obtain ⟨again, -, encodedLater, deflatedLater⟩ := later
  rw [one.channels] at found
  rw [other.channels, found] at again
  cases again
  cases encoded.symm.trans encodedLater
  rw [deflated, deflatedLater, level]

/-- Rows of floats and halves, where every second row has integers at every second pixel. -/
def sampledLayer : Layer where
  channels := [.full "A" .float, .full "B" .half, ⟨Name.ofString "C", .uint, false, ⟨2, 2⟩⟩]
  method := .pxr24
  window := ⟨⟨-4, -2⟩, ⟨4, 20⟩⟩
  partition := .scanLines
  deep := false
  zstdLevel := some 3

/-- An instance for these rows, with the initial defaults and used buffers. -/
def rowWriter : FlatCompressor where
  method := .pxr24
  channels := sampledLayer.channels
  window := sampledLayer.window
  largest := ⟨4, 16⟩
  scanLines := 16
  zipLevel := 4
  zstdLevel := 3
  quality := Defaults.initial.quality
  buffers := ⟨[], [5]⟩

/-- An instance for these rows, made after the zip level had changed. -/
def rowReader : FlatCompressor := { rowWriter with zipLevel := 0, buffers := .empty }

/-- The last four rows: floats of a tenth, halves of one, and integers in two rows. -/
def rowBytes : Bytes :=
  let floats : List Bytes := List.replicate 4 [205, 204, 204, 61]
  let halves : List Bytes := List.replicate 4 [0, 60]
  let integers : List Bytes := [[7, 0, 0, 0], [8, 0, 0, 0]]
  let odd := floats ++ halves
  let even := odd ++ integers
  (even ++ odd ++ even ++ odd).flatten

/-- The planes of the last four rows. -/
def rowPlanes : Bytes :=
  let floats : Bytes := [61, 0, 0, 0, 204, 0, 0, 0, 205, 0, 0, 0]
  let halves : Bytes := [60, 0, 0, 0, 0, 0, 0, 0]
  let integers : Bytes := [0, 0, 0, 0, 0, 0, 7, 1]
  let odd := floats ++ halves
  let even := odd ++ integers
  even ++ odd ++ even ++ odd

/-- The zlib stream of these planes. -/
def rowRecording : Coders.Recording := .ofStreams
  { entries := [(rowPlanes,
        [120, 94, 179, 101, 96, 96, 56, 3, 196, 103, 129, 216, 134, 1, 25, 176, 51, 218, 98, 145,
          195, 38, 6, 1, 216, 213, 3, 0, 177, 253, 8, 89])]
    distinct := by decide
    unmarked := by decide }

/-- Blocks of planes come back as they are if the zlib stream of their planes is not shorter, and
with rounded floats otherwise. What came back is stored once more at the same level and comes
back without further change. -/
theorem rounded_roundTrip {coders : Coders} (zlib : coders.ZlibLaws) {layer : Layer}
    (method : layer.method = .pxr24) {writer reader laterWriter laterReader : FlatCompressor}
    (written : MadeFor layer writer) (read : MadeFor layer reader)
    (writtenLater : MadeFor layer laterWriter) (readLater : MadeFor layer laterReader)
    (level : laterWriter.zipLevel = writer.zipLevel)
    {place : Place} {bounds : Rectangle} (placed : writer.boundsOf place = .ok bounds)
    {raw : Bytes} (sized : layer.channels.byteSize bounds = .ok raw.length) :
    ∃ segments planes stream stored restored,
      Planes.segments layer.channels bounds = .ok segments ∧
      Planes.encode segments raw = .ok planes ∧
      stream = (if raw = [] then [] else coders.deflate writer.zipLevel planes) ∧
      stored = (if stream.length < raw.length then stream else raw) ∧
      restored = (if stream.length < raw.length then Planes.rounded segments raw else raw) ∧
      (writer.compress coders raw place).1 = .ok stored ∧
      (reader.uncompress coders stored place).1 = .ok restored ∧
      ∃ storedLater, (laterWriter.compress coders restored place).1 = .ok storedLater ∧
        (laterReader.uncompress coders storedLater place).1 = .ok restored := by
  obtain ⟨segments, planes, stream, streamed, compressed, uncompressed⟩ :=
    exists_roundTrip_planes zlib method written.serves read.serves placed sized
  have found := streamed.listed
  rw [written.serves.channels] at found
  have accepted : laterWriter.boundsOf place = .ok bounds := by
    rw [writtenLater.serves.boundsOf_eq written.serves, placed]
  refine ⟨segments, planes, stream, _, _, found, streamed.encoded, streamed.deflated, rfl, rfl,
    compressed, uncompressed, ?_⟩
  by_cases shorter : stream.length < raw.length
  · rw [if_pos shorter]
    have filled : layer.channels.byteSize bounds =
        .ok (Planes.rounded segments raw).length := by
      rw [sized, Planes.length_rounded, streamed.filled]
    obtain ⟨segmentsLater, planesLater, streamLater, streamedLater, stores, restores⟩ :=
      exists_roundTrip_planes zlib method writtenLater.serves readLater.serves accepted filled
    have foundLater := streamedLater.listed
    rw [writtenLater.serves.channels, found] at foundLater
    cases foundLater
    rw [Planes.rounded_rounded streamed.filled.symm, ite_self] at restores
    exact ⟨_, stores, restores⟩
  · rw [if_neg shorter]
    obtain ⟨segmentsLater, planesLater, streamLater, streamedLater, stores, restores⟩ :=
      exists_roundTrip_planes zlib method writtenLater.serves readLater.serves accepted sized
    -- the same level gives the same stream, so the block is stored raw again
    cases streamed.unique streamedLater written.serves writtenLater.serves level
    simp only [if_neg shorter] at stores restores
    exact ⟨raw, stores, restores⟩

/-- Four rows with skipped samples below the origin go through their planes twice. -/
theorem rounded_roundTrip_rows :
    ∃ segments planes stream stored restored,
      Planes.segments sampledLayer.channels ⟨⟨-4, 14⟩, ⟨4, 4⟩⟩ = .ok segments ∧
      Planes.encode segments rowBytes = .ok planes ∧
      stream = (if rowBytes = [] then [] else rowRecording.coders.deflate 4 planes) ∧
      stored = (if stream.length < rowBytes.length then stream else rowBytes) ∧
      restored = (if stream.length < rowBytes.length then Planes.rounded segments rowBytes
        else rowBytes) ∧
      (rowWriter.compress rowRecording.coders rowBytes (.scanLines 14)).1 = .ok stored ∧
      (rowReader.uncompress rowRecording.coders stored (.scanLines 14)).1 = .ok restored ∧
      ∃ storedLater,
        (rowWriter.compress rowRecording.coders restored (.scanLines 14)).1 = .ok storedLater ∧
        (rowReader.uncompress rowRecording.coders storedLater (.scanLines 14)).1 =
          .ok restored := by
  have changed : Defaults.Reachable { Defaults.initial with zip := 0 } :=
    Defaults.reachable_iff_valid.mpr ⟨by decide, by decide, by decide⟩
  have written : MadeFor sampledLayer rowWriter := ⟨Defaults.initial, .initial, rfl⟩
  have read : MadeFor sampledLayer rowReader := ⟨_, changed, rfl⟩
  have placed : rowWriter.boundsOf (.scanLines 14) = .ok ⟨⟨-4, 14⟩, ⟨4, 4⟩⟩ := rfl
  have sized : sampledLayer.channels.byteSize ⟨⟨-4, 14⟩, ⟨4, 4⟩⟩ = .ok rowBytes.length := rfl
  exact rounded_roundTrip rowRecording.lawful.toZlibLaws rfl written read written read rfl placed
    sized

example : (rowWriter.compress rowRecording.coders rowBytes (.scanLines 14)).1 =
    .ok (rowRecording.coders.deflate 4 rowPlanes) := rfl

end PixelBlocks.FlatCompressor

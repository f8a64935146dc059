import PixelBlocks.Command.Run
import PixelBlocks.Proofs.Buffers
import PixelBlocks.Proofs.Command.Tiling
import PixelBlocks.Proofs.Deep.Envelope
import PixelBlocks.Proofs.Schedule

/-!
# Files come back

A compressed file is the layout of its blocks, each behind its size, and its reader knows
from the layer how many blocks to expect. So it reads back the blocks that were stored,
whatever the schedules were, and their bytes make up the raw file again. Where a file is cut
or continued, it is not the layout of as many blocks any more, also if the cut is between two
blocks.
-/

namespace PixelBlocks

namespace Command

section Layers

variable {arguments : LayerArguments} {layer : Layer}

/-- Results of the library are those of its outcomes. -/
theorem Result.ofOutcome_eq_ok_iff {α : Type} {outcome : Outcome α} {result : α} :
    Result.ofOutcome outcome = .ok result ↔ outcome = .ok result := by
  cases outcome <;> simp [Result.ofOutcome, Except.mapError]

/-- A channel that was read has a sample at every pixel. -/
theorem sampling_of_readChannel {argument : String} {channel : Channel}
    (read : readChannel argument = .ok channel) : channel.sampling = ⟨1, 1⟩ := by
  unfold readChannel at read
  dsimp only at read
  split at read
  · cases read
  · split at read
    · cases read
      rfl
    · cases read

/-- What the layer of accepted arguments is. -/
structure Describes (arguments : LayerArguments) (layer : Layer) : Prop where
  accepted : layer.Accepted
  flat : layer.deep = false
  window : layer.window = .ofSize ⟨UInt64.ofNat arguments.width, UInt64.ofNat arguments.height⟩
  countable : layer.channels.Countable

/-- Accepted arguments describe an accepted flat layer without subsampling. -/
theorem describes_of_layer (described : arguments.layer = .ok layer) :
    Describes arguments layer := by
  obtain ⟨method, -, described⟩ := Outcome.bind_eq_ok_iff.mp described
  obtain ⟨channels, read, described⟩ := Outcome.bind_eq_ok_iff.mp described
  obtain ⟨⟨⟩, valid, same⟩ := Outcome.bind_eq_ok_iff.mp described
  cases same
  refine ⟨Layer.validate_eq_ok_iff.mp (Result.ofOutcome_eq_ok_iff.mp valid), rfl, rfl, ?_⟩
  intro channel member
  have listed : channel ∈ channels := List.mem_mergeSort.mp member
  obtain ⟨argument, -, found⟩ := Outcome.exists_of_mem_mapM read listed
  rw [sampling_of_readChannel found]
  decide

end Layers

section Cutting

variable {layer : Layer}

/-- A compressed file is cut into blocks as an envelope is cut into chunks; the blocks get the
first rows that the command line counts to. -/
theorem cutStored_eq_ok_iff {count index : Nat} {file : Bytes} {blocks : List ScanLineBlock} :
    cutStored layer count index file = .ok blocks ↔
      ∃ chunks, Envelope.decodeChunks count file = .ok chunks ∧
        blocks = List.zipWith ScanLineBlock.mk
          ((List.range' index count).map (blockOrigin layer)) chunks := by
  induction count generalizing index file blocks with
  | zero => cases file <;> simp [cutStored, Envelope.decodeChunks, eq_comm]
  | succ count inductionHypothesis =>
    -- both readers take the same size from the front and refuse the same sizes
    rw [cutStored, Envelope.decodeChunks]
    cases Scalar.int32.read file with
    | error fault => simp
    | ok found =>
      obtain ⟨size, rest⟩ := found
      rw [Outcome.ok_bind]
      dsimp only
      by_cases negative : Int32.toInt size < 0
      · simp [negative]
      · rw [if_neg negative, if_neg negative]
        by_cases missing : (rest.take (Int32.toInt size).toNat).length < (Int32.toInt size).toNat
        · rw [if_pos missing, if_pos missing]
          simp
        · rw [if_neg missing, if_neg missing, Outcome.bind_eq_ok_iff]
          simp only [inductionHypothesis, Outcome.bind_eq_ok_iff]
          constructor
          · rintro ⟨others, ⟨chunks, decoded, rfl⟩, same⟩
            cases same
            exact ⟨_, ⟨chunks, decoded, rfl⟩, rfl⟩
          · rintro ⟨all, ⟨chunks, decoded, same⟩, rfl⟩
            cases same
            exact ⟨_, ⟨chunks, decoded, rfl⟩, rfl⟩

/-- A file that is not the layout of as many blocks as the layer has is refused. -/
theorem exists_decompressFile_error {coders : Coders} {schedule : Schedule} {file : Bytes}
    (other : ∀ chunks, Envelope.decodeChunks (blockCount layer) file ≠ .ok chunks) :
    ∃ failure, decompressFile coders schedule layer file = .error failure := by
  cases cut : cutStored layer (blockCount layer) 0 file with
  | error failure =>
    refine ⟨failure, ?_⟩
    rw [decompressFile, cut, Outcome.error_bind]
  | ok blocks =>
    obtain ⟨chunks, decoded, -⟩ := cutStored_eq_ok_iff.mp cut
    exact absurd decoded (other chunks)

end Cutting

section Files

variable {coders : Coders} {layer : Layer} {compressor : FlatCompressor} {corner : Pair Int32}

/-- The frame of a small block has a size that fits into the header of its chunk. -/
theorem frameBound_lt (growth : coders.FrameGrowth) {size : Nat} (small : size < 0x80000000) :
    coders.frameBound size < 0x100000000 := by
  rw [growth.frameBound_eq size (by omega), Coders.standardFrameBound]
  split <;> omega

/-- A block of a method that loses nothing is stored, with a size that fits into files, and
comes back. -/
theorem exists_stored (zlib : coders.ZlibLaws) (frames : coders.FrameLaws)
    (total : coders.FrameBounds) (growth : coders.FrameGrowth)
    (serves : FlatCompressor.Serves layer compressor)
    (fits : layer.RowsFit) (found : layer.window.opposite = .ok corner)
    (implemented : layer.method.isImplemented = true)
    (exact : ∀ channel ∈ layer.channels, layer.method.isLosslessFor channel.type = true)
    {block : ScanLineBlock} (member : block.row ∈ blockOrigins layer)
    (sized : layer.channels.byteSize (blockBounds layer block.row) = .ok block.bytes.length)
    (small : block.bytes.length < 0x80000000) :
    ∃ stored, (compressor.compress coders block.bytes (.scanLines block.row)).1 = .ok stored ∧
      stored.length < 0x80000000 ∧
      (compressor.uncompress coders stored (.scanLines block.row)).1 = .ok block.bytes := by
  have placed : compressor.boundsOf (.scanLines block.row) = .ok (blockBounds layer block.row) :=
    blockAt_eq_blockBounds serves fits found member
  obtain ⟨form, carries⟩ := FlatCompressor.exists_carries_lossless zlib frames total serves serves
    implemented exact sized (fun _ => frameBound_lt growth small)
  obtain ⟨stored, restored⟩ := FlatCompressor.roundTrip_of_carries serves serves implemented
    placed sized carries rfl
  rw [FlatCompressor.returned_self] at restored
  have shorter := FlatCompressor.length_shorterForm_le form block.bytes
  exact ⟨_, stored, Nat.lt_of_le_of_lt shorter small, restored⟩

/-- The pieces of a raw file are the blocks of the layer. -/
theorem forall_of_pieces {rows : List Int32} {pieces : List ScanLineBlock}
    {measured : Int32 → ScanLineBlock → Prop}
    (matched : List.Forall₂ (fun row piece => piece.row = row ∧ measured row piece) rows pieces) :
    rows = pieces.map ScanLineBlock.row ∧ ∀ piece ∈ pieces, measured piece.row piece := by
  induction matched with
  | nil => exact ⟨rfl, by simp⟩
  | cons here _ inductionHypothesis =>
    obtain ⟨rfl, holds⟩ := here
    obtain ⟨rfl, later⟩ := inductionHypothesis
    exact ⟨rfl, List.forall_mem_cons.mpr ⟨holds, later⟩⟩

section Images

variable {pieces : List ScanLineBlock} {image : ScanLineBlock → Bytes}

/-- The stored blocks of the pieces of a raw file make up its compressed file. -/
theorem compressFile_eq (built : FlatCompressor.build .initial layer = .ok compressor)
    {raw : Bytes} (sized : layer.channels.byteSize layer.window = .ok raw.length)
    (cut : cutRaw layer (blockOrigins layer) raw = .ok pieces)
    (compressed : ∀ piece ∈ pieces,
      (compressor.compress coders piece.bytes (.scanLines piece.row)).1 = .ok (image piece))
    (short : ∀ piece ∈ pieces, (image piece).length < 0x80000000) (schedule : Schedule)
    (input : String) :
    compressFile coders schedule layer input raw =
      .ok (Envelope.layout (pieces.map image)) := by
  have batch : Batch.compress coders schedule .initial layer pieces = .ok (pieces.map image) := by
    rw [Batch.compress, built, Outcome.ok_bind, Schedule.runAll_eq_mapM]
    exact Outcome.mapM_eq_ok_map compressed
  have prefixed : (pieces.map image).mapM Scalar.uint8.encodeSized =
      .ok ((pieces.map image).map Envelope.sized) := by
    apply Outcome.mapM_eq_ok_map
    intro block member
    obtain ⟨piece, inside, rfl⟩ := List.mem_map.mp member
    exact Envelope.encodeSized_eq_ok_iff.mpr ⟨short piece inside, rfl⟩
  rw [compressFile, sized, Result.ofOutcome_ok, Outcome.ok_bind, if_neg (by simp), cut,
    Outcome.ok_bind, batch, Result.ofOutcome_ok, Outcome.ok_bind, prefixed, Result.ofOutcome_ok,
    Outcome.ok_bind]
  rfl

/-- The pieces are read back from their stored blocks. -/
theorem decompressFile_eq (built : FlatCompressor.build .initial layer = .ok compressor)
    (rows : blockOrigins layer = pieces.map ScanLineBlock.row)
    (short : ∀ piece ∈ pieces, (image piece).length < 0x80000000)
    (uncompressed : ∀ piece ∈ pieces,
      (compressor.uncompress coders (image piece) (.scanLines piece.row)).1 = .ok piece.bytes)
    (schedule : Schedule) :
    decompressFile coders schedule layer (Envelope.layout (pieces.map image)) =
      .ok (pieces.flatMap ScanLineBlock.bytes) := by
  have counted : (pieces.map image).length = blockCount layer := by
    have lengths := congrArg List.length rows
    simpa [blockOrigins] using lengths.symm
  have decoded := Envelope.decodeChunks_eq_ok_iff.mpr ⟨counted, by simpa using short, rfl⟩
  have blocks : cutStored layer (blockCount layer) 0 (Envelope.layout (pieces.map image)) =
      .ok (pieces.map fun piece => ⟨piece.row, image piece⟩) := by
    refine cutStored_eq_ok_iff.mpr ⟨_, decoded, ?_⟩
    rw [← List.range_eq_range', ← blockOrigins, rows, List.zipWith_map, List.zipWith_self]
  have batch : Batch.uncompress coders schedule .initial layer
      (pieces.map fun piece => ⟨piece.row, image piece⟩) =
        .ok (pieces.map ScanLineBlock.bytes) := by
    rw [Batch.uncompress, built, Outcome.ok_bind, Schedule.runAll_eq_mapM, List.mapM_map]
    exact Outcome.mapM_eq_ok_map uncompressed
  rw [decompressFile, blocks, Outcome.ok_bind, batch, Result.ofOutcome_ok, Outcome.ok_bind,
    ← List.flatMap_def]
  rfl

end Images

/-- A raw file of the size of the window has a compressed file, which is the layout of one
stored block for each block of the layer, and which is read back under every schedule. -/
theorem exists_file (zlib : coders.ZlibLaws) (frames : coders.FrameLaws)
    (total : coders.FrameBounds) (growth : coders.FrameGrowth) (accepted : layer.Accepted)
    (flat : layer.deep = false) (countable : layer.channels.Countable) (fits : layer.RowsFit)
    (found : layer.window.opposite = .ok corner)
    (implemented : layer.method.isImplemented = true)
    (exact : ∀ channel ∈ layer.channels, layer.method.isLosslessFor channel.type = true)
    {raw : Bytes} (sized : layer.channels.byteSize layer.window = .ok raw.length)
    (small : ∀ row ∈ blockOrigins layer, ∀ size,
      layer.channels.byteSize (blockBounds layer row) = .ok size → size < 0x80000000) :
    ∃ stored : List Bytes, stored.length = blockCount layer ∧
      (∀ block ∈ stored, block.length < 0x80000000) ∧
      (∀ schedule input, compressFile coders schedule layer input raw =
        .ok (Envelope.layout stored)) ∧
      ∀ schedule, decompressFile coders schedule layer (Envelope.layout stored) = .ok raw := by
  obtain ⟨compressor, built⟩ := FlatCompressor.exists_build .initial accepted flat
  have made : FlatCompressor.MadeFor layer compressor :=
    ⟨.initial, .initial, built.trans (congrArg _ (FlatCompressor.clear_of_build built).symm)⟩
  obtain ⟨pieces, -, cut, matched, whole⟩ :=
    exists_cutRaw_window accepted fits countable found sized
  obtain ⟨rows, measured⟩ := forall_of_pieces matched
  have comesBack : ∀ piece ∈ pieces, ∃ stored,
      (compressor.compress coders piece.bytes (.scanLines piece.row)).1 = .ok stored ∧
        stored.length < 0x80000000 ∧
        (compressor.uncompress coders stored (.scanLines piece.row)).1 = .ok piece.bytes := by
    intro piece inside
    have member : piece.row ∈ blockOrigins layer := by
      rw [rows]
      exact List.mem_map_of_mem inside
    have size := measured piece inside
    exact exists_stored zlib frames total growth made.serves fits found implemented exact member
      size (small _ member _ size)
  choose! image compressed short uncompressed using comesBack
  refine ⟨pieces.map image, ?_, by simpa using short, ?_, ?_⟩
  · have lengths := congrArg List.length rows
    simpa [blockOrigins] using lengths.symm
  · exact compressFile_eq built sized cut compressed short
  · rw [← whole]
    exact decompressFile_eq built rows short uncompressed

end Files

/-- Carries out a request in a directory. -/
def Request.runIn (coders : Coders) (schedule : Schedule) (directory : Directory)
    (request : Request) : Report × Directory :=
  match request.plan coders schedule with
  | .error failure => (.failure failure, directory)
  | .ok plan => plan.runIn directory

/-- The tool carries out the request that its arguments make. -/
theorem runIn_eq_of_read {words : List String} {request : Request}
    (read : readCommandLine words = .ok request) (coders : Coders) (schedule : Schedule)
    (directory : Directory) :
    runIn coders schedule directory words = request.runIn coders schedule directory := by
  rw [runIn, read]
  rfl

/-- A sort of requests turns a file of some content into one of another, whatever the files are
called, and changes no other file. -/
def Converts (coders : Coders) (request : String → String → Request) (content converted : Bytes) :
    Prop :=
  ∀ schedule (directory : Directory) input output, directory.lookup input = some content →
    (request input output).runIn coders schedule directory =
      (.success "", directory.write output converted)

/-- A sort of requests fails for a file of some content, and writes nothing. -/
def Refuses (coders : Coders) (request : String → String → Request) (content : Bytes) : Prop :=
  ∀ schedule (directory : Directory) input output, directory.lookup input = some content →
    ∃ failure, (request input output).runIn coders schedule directory =
      (.failure failure, directory)

section Requests

variable {coders : Coders} {arguments : LayerArguments} {layer : Layer} {content : Bytes}

/-- Compressing a file writes what is made of it, or nothing. -/
theorem runIn_compress (described : arguments.layer = .ok layer) (schedule : Schedule)
    {directory : Directory} {input : String} (found : directory.lookup input = some content)
    (output : String) :
    (Request.compress arguments input output).runIn coders schedule directory =
      match compressFile coders schedule layer input content with
      | .error failure => (.failure failure, directory)
      | .ok converted => (.success "", directory.write output converted) := by
  cases made : compressFile coders schedule layer input content <;>
    simp only [Request.runIn, Request.plan, described, Outcome.ok_bind, Outcome.pure_eq_ok,
      Plan.runIn, found, made]

/-- Decompressing a file writes what is made of it, or nothing. -/
theorem runIn_decompress (described : arguments.layer = .ok layer) (schedule : Schedule)
    {directory : Directory} {input : String} (found : directory.lookup input = some content)
    (output : String) :
    (Request.decompress arguments input output).runIn coders schedule directory =
      match decompressFile coders schedule layer content with
      | .error failure => (.failure failure, directory)
      | .ok converted => (.success "", directory.write output converted) := by
  cases made : decompressFile coders schedule layer content <;>
    simp only [Request.runIn, Request.plan, described, Outcome.ok_bind, Outcome.pure_eq_ok,
      Plan.runIn, found, made]

/-- A file that does not hold as many blocks as the layer has is refused. -/
theorem refuses_decompress (described : arguments.layer = .ok layer)
    (other : ∀ chunks, Envelope.decodeChunks (blockCount layer) content ≠ .ok chunks) :
    Refuses coders (.decompress arguments) content := by
  intro schedule directory input output found
  obtain ⟨failure, failed⟩ := exists_decompressFile_error other
  refine ⟨failure, ?_⟩
  rw [runIn_decompress described schedule found, failed]

/-- A raw file that does not have the size of the window is refused. -/
theorem refuses_compress (described : arguments.layer = .ok layer) {expected : Nat}
    (sized : layer.channels.byteSize layer.window = .ok expected)
    (other : content.length ≠ expected) : Refuses coders (.compress arguments) content := by
  intro schedule directory input output found
  rw [runIn_compress described schedule found, compressFile, sized, Result.ofOutcome_ok,
    Outcome.ok_bind, if_pos other]
  exact ⟨_, rfl⟩

end Requests

/-- What the tool does with a raw file and the compressed file that it makes of it. -/
structure RoundTrips (coders : Coders) (arguments : LayerArguments) (raw file : Bytes) :
    Prop where
  compresses : Converts coders (.compress arguments) raw file
  decompresses : Converts coders (.decompress arguments) file raw
  /-- A compressed file that was cut anywhere is refused. -/
  cut : ∀ length, length < file.length → Refuses coders (.decompress arguments) (file.take length)
  /-- So is one that goes on. -/
  continued : ∀ extra, extra ≠ [] → Refuses coders (.decompress arguments) (file ++ extra)
  /-- A raw file of another size is refused. -/
  other : ∀ content : Bytes, content.length ≠ raw.length →
    Refuses coders (.compress arguments) content

/-- A raw file of the size of the layer is compressed into a file of sized blocks, one for each
block of the layer, and that file is decompressed into the raw file. The layer is any that the
arguments describe, with a method that is implemented and loses nothing of its channels. -/
theorem file_roundTrip {coders : Coders} (zlib : coders.ZlibLaws) (frames : coders.FrameLaws)
    (total : coders.FrameBounds) (growth : coders.FrameGrowth) {arguments : LayerArguments}
    {layer : Layer} (described : arguments.layer = .ok layer)
    (narrow : arguments.width < 0x40000000) (short : arguments.height < 0x40000000)
    (implemented : layer.method.isImplemented = true)
    (exact : ∀ channel ∈ layer.channels, layer.method.isLosslessFor channel.type = true)
    {raw : Bytes} (sized : layer.channels.byteSize layer.window = .ok raw.length)
    (small : ∀ row ∈ blockOrigins layer, ∀ size,
      layer.channels.byteSize (blockBounds layer row) = .ok size → size < 0x80000000) :
    ∃ stored : List Bytes, stored.length = blockCount layer ∧
      (∀ block ∈ stored, block.length < 0x80000000) ∧
      RoundTrips coders arguments raw (Envelope.layout stored) := by
  obtain ⟨accepted, flat, window, countable⟩ := describes_of_layer described
  have columns : layer.window.size.x.toNat < 0x80000000 := by
    rw [window, Rectangle.ofSize, UInt64.toNat_ofNat']
    omega
  have rows : layer.window.size.y.toNat < 0x80000000 := by
    rw [window, Rectangle.ofSize, UInt64.toNat_ofNat']
    omega
  have fits := accepted.rowsFit rows
  obtain ⟨corner, found⟩ := Rectangle.exists_opposite accepted.window columns rows
  obtain ⟨stored, counted, shorts, compressed, decompressed⟩ := exists_file zlib frames total
    growth accepted flat countable fits found implemented exact sized small
  have whole := Envelope.decodeChunks_eq_ok_iff.mpr ⟨counted, shorts, rfl⟩
  refine ⟨stored, counted, shorts, ?_⟩
  constructor
  case compresses =>
    intro schedule directory input output there
    rw [runIn_compress described schedule there, compressed]
  case decompresses =>
    intro schedule directory input output there
    rw [runIn_decompress described schedule there, decompressed]
  case cut =>
    intro length inside
    apply refuses_decompress described
    intro chunks decoded
    have same := Envelope.eq_of_prefix decoded whole (List.take_prefix _ _)
    have lengths := congrArg List.length same
    rw [List.length_take] at lengths
    omega
  case continued =>
    intro extra more
    apply refuses_decompress described
    intro chunks decoded
    have same := Envelope.eq_of_prefix whole decoded (List.prefix_append _ _)
    exact more (List.self_eq_append_right.mp same)
  case other => exact fun content differs => refuses_compress described sized differs

/-- A strip of twenty pixels, whose channels are not given in order. -/
def stripArguments : LayerArguments := ⟨"zip", 1, 20, ["Z:float", "A:half"], none⟩

/-- The layer of this strip. -/
def stripLayer : Layer where
  channels := [.full "A" .half, .full "Z" .float]
  method := .zipBlock
  window := .ofSize ⟨1, 20⟩
  partition := .scanLines
  deep := false
  zstdLevel := none

/-- The arguments describe this layer, with the channels in order. -/
theorem layer_stripArguments : stripArguments.layer = .ok stripLayer := by
  have method : Result.ofOutcome (Method.ofName stripArguments.codec) = .ok .zipBlock := by
    decide +kernel
  have read : stripArguments.channels.mapM readChannel =
      .ok [.full "Z" .float, .full "A" .half] := by decide +kernel
  have sorted : sortChannels [.full "Z" .float, .full "A" .half] =
      [.full "A" .half, .full "Z" .float] := by
    have later : ((Channel.full "Z" .float).name.compare (Channel.full "A" .half).name != .gt) =
        false := by decide +kernel
    simp [sortChannels, List.mergeSort, List.MergeSort.Internal.splitInTwo, later]
  rw [LayerArguments.layer, method, Outcome.ok_bind, read, Outcome.ok_bind, sorted]
  decide +kernel

/-- The zlib streams of the two prepared blocks of a strip whose bytes are all seven. -/
def stripRecording : Coders.Recording := .ofStreams
  { entries := [
        (7 :: List.replicate 95 128, [120, 94, 99, 111, 160, 45, 0, 0, 235, 120, 47, 136]),
        (7 :: List.replicate 23 128, [120, 94, 99, 111, 192, 14, 0, 138, 192, 11, 136])]
    distinct := by decide
    unmarked := by decide }

/-- Two blocks of a strip go through a file. -/
theorem file_roundTrip_strip :
    ∃ stored : List Bytes, stored.length = blockCount stripLayer ∧
      (∀ block ∈ stored, block.length < 0x80000000) ∧
      RoundTrips stripRecording.coders stripArguments (List.replicate 120 7)
        (Envelope.layout stored) := by
  have laws := stripRecording.lawful
  have sized : stripLayer.channels.byteSize stripLayer.window =
      .ok (List.replicate 120 (7 : UInt8)).length := by
    rw [List.length_replicate]
    decide
  refine file_roundTrip laws.toZlibLaws laws.toFrameLaws laws.toFrameBounds laws.toFrameGrowth
    layer_stripArguments (by decide) (by decide) rfl (by decide) sized ?_
  have origins : blockOrigins stripLayer = [0, 16] := by decide
  have upper : stripLayer.channels.byteSize (blockBounds stripLayer 0) = .ok 96 := by decide
  have lower : stripLayer.channels.byteSize (blockBounds stripLayer 16) = .ok 24 := by decide
  intro row member size found
  rw [origins] at member
  rcases List.mem_pair.mp member with rfl | rfl
  · cases found.symm.trans upper
    decide
  · cases found.symm.trans lower
    decide

end Command

end PixelBlocks

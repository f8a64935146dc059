import PixelBlocks.Batch
import PixelBlocks.Proofs.Deep.Calls
import PixelBlocks.Proofs.Flat.RoundTrip
import PixelBlocks.Proofs.Interleaving

/-!
# Batches are sequences

The blocks of a batch are processed side by side, each by its own copy of one instance.
One instance that processes them one after the other comes to the same, because what it
keeps between blocks does not matter. So a batch has one outcome, whatever the order of its
tasks: all results at the places of their blocks, or the fault of the first block that
fails. The channels of a deep block are processed in the same way.
-/

namespace PixelBlocks

section Tasks

variable {Input Result Fault : Type}

/-- An outcome of tasks that does not tell in which order they ran. -/
structure Orderly (task : Input → Except Fault Result) (inputs : List Input)
    (outcome : Except Fault (List Result)) : Prop where
  /-- It succeeds exactly if every task does, with each result at the place of its input. -/
  ok : ∀ results, outcome = .ok results ↔
    List.Forall₂ (fun input result => task input = .ok result) inputs results
  /-- It fails exactly with the fault of the first input whose task fails. -/
  error : ∀ fault, outcome = .error fault ↔
    ∃ before input after, inputs = before ++ input :: after ∧
      (∀ earlier ∈ before, ∃ result, task earlier = .ok result) ∧ task input = .error fault
  /-- It is what a scope returns in every interleaving of the tasks. -/
  returned : ∀ other, Scope.Returns task inputs other ↔ other = outcome

/-- Under every schedule the outcome is orderly. -/
theorem orderly_runAll (schedule : Schedule) (task : Input → Except Fault Result)
    (inputs : List Input) : Orderly task inputs (schedule.runAll task inputs) := by
  rw [Schedule.runAll_eq_mapM]
  constructor
  · exact fun results => Outcome.mapM_eq_ok_iff
  · exact fun fault => Outcome.mapM_eq_error_iff
  · exact fun other => Scope.returns_iff

end Tasks

namespace Batch

/-- Processes blocks one after the other on one instance, up to the first fault. -/
def oneByOne (call : FlatCompressor → ScanLineBlock → Outcome Bytes × FlatCompressor) :
    FlatCompressor → List ScanLineBlock → Outcome (List Bytes)
  | _, [] => .ok []
  | compressor, block :: others =>
    match call compressor block with
    | (.error fault, _) => .error fault
    | (.ok bytes, compressor) => do
      let rest ← oneByOne call compressor others
      return bytes :: rest

/-- One instance that forgets what it kept gives what copies of it give. The induction is on
the blocks, for any buffers of the instance. -/
theorem oneByOne_eq_mapM {call : FlatCompressor → ScanLineBlock → Outcome Bytes × FlatCompressor}
    (settled : ∀ compressor block, (call compressor block).2.clear = compressor.clear)
    (forgetful : ∀ compressor block, (call compressor.clear block).1 = (call compressor block).1)
    (compressor : FlatCompressor) (blocks : List ScanLineBlock) :
    oneByOne call compressor blocks = blocks.mapM fun block => (call compressor block).1 := by
  induction blocks generalizing compressor with
  | nil => rfl
  | cons block others inductionHypothesis =>
    rw [List.mapM_cons]
    have kept := settled compressor block
    rcases called : call compressor block with ⟨fault | bytes, after⟩
    · simp only [oneByOne, called, Outcome.error_bind]
    · have same : ∀ other, (call after other).1 = (call compressor other).1 := by
        intro other
        rw [called] at kept
        rw [← forgetful after, kept, forgetful]
      simp only [oneByOne, called, Outcome.ok_bind, inductionHypothesis, same]

section Blocks

variable {defaults : Defaults} {layer : Layer} {prototype : FlatCompressor}

/-- A batch is compressed as one instance compresses it, block after block. -/
theorem compress_eq_oneByOne (coders : Coders) (schedule : Schedule)
    (built : FlatCompressor.build defaults layer = .ok prototype) (blocks : List ScanLineBlock) :
    compress coders schedule defaults layer blocks =
      oneByOne (fun compressor block =>
        compressor.compress coders block.bytes (.scanLines block.row)) prototype blocks := by
  rw [compress, built, Outcome.ok_bind, Schedule.runAll_eq_mapM, oneByOne_eq_mapM]
  · exact fun compressor block => FlatCompressor.clear_compress ..
  · exact fun compressor block => FlatCompressor.compress_clear ..

/-- A batch is decompressed as one instance decompresses it, block after block. -/
theorem uncompress_eq_oneByOne (coders : Coders) (schedule : Schedule)
    (built : FlatCompressor.build defaults layer = .ok prototype) (blocks : List ScanLineBlock) :
    uncompress coders schedule defaults layer blocks =
      oneByOne (fun compressor block =>
        compressor.uncompress coders block.bytes (.scanLines block.row)) prototype blocks := by
  rw [uncompress, built, Outcome.ok_bind, Schedule.runAll_eq_mapM, oneByOne_eq_mapM]
  · exact fun compressor block => FlatCompressor.clear_uncompress ..
  · exact fun compressor block => FlatCompressor.uncompress_clear ..

end Blocks

/-- Blocks and channels that are processed side by side come to what they come to one after the
other, whatever the layer, the defaults and the schedule. -/
structure Sequential (coders : Coders) (defaults : Defaults) (layer : Layer) : Prop where
  /-- If no instance can be made, this is the outcome of every batch, also of the empty one. -/
  refused : ∀ fault, FlatCompressor.build defaults layer = .error fault → ∀ schedule blocks,
    compress coders schedule defaults layer blocks = .error fault ∧
    uncompress coders schedule defaults layer blocks = .error fault
  /-- Blocks are compressed as by one instance, one after the other. -/
  compressed : ∀ prototype, FlatCompressor.build defaults layer = .ok prototype →
    ∀ schedule blocks,
      compress coders schedule defaults layer blocks =
        oneByOne (fun compressor block =>
          compressor.compress coders block.bytes (.scanLines block.row)) prototype blocks ∧
      Orderly (fun block : ScanLineBlock =>
          (prototype.compress coders block.bytes (.scanLines block.row)).1)
        blocks (compress coders schedule defaults layer blocks)
  /-- Blocks are decompressed as by one instance, one after the other. -/
  uncompressed : ∀ prototype, FlatCompressor.build defaults layer = .ok prototype →
    ∀ schedule blocks,
      uncompress coders schedule defaults layer blocks =
        oneByOne (fun compressor block =>
          compressor.uncompress coders block.bytes (.scanLines block.row)) prototype blocks ∧
      Orderly (fun block : ScanLineBlock =>
          (prototype.uncompress coders block.bytes (.scanLines block.row)).1)
        blocks (uncompress coders schedule defaults layer blocks)
  /-- Deep blocks do not depend on the schedule either. -/
  deep : ∀ (compressor : DeepCompressor) bytes offsets schedule,
    compressor.compress coders schedule bytes offsets =
      compressor.compress coders .inOrder bytes offsets ∧
    compressor.uncompress coders schedule bytes offsets =
      compressor.uncompress coders .inOrder bytes offsets
  /-- The chunks of their channels are made as one after the other. -/
  chunks : ∀ schedule level samples ranges, ∃ chunks,
    DeepCompressor.channelChunks coders schedule level samples ranges = chunks ∧
    DeepCompressor.encodeChannels coders schedule level samples ranges =
      (chunks >>= Envelope.encode) ∧
    Orderly (fun range : DeepCompressor.ChannelRange =>
        Chunk.encode coders (.ofSampleType range.type level) (range.slice samples))
      ranges chunks
  /-- The chunks of their channels are read as one after the other. -/
  pieces : ∀ schedule channels envelope total found expected,
    Envelope.decode envelope channels.length = .ok found →
    DeepCompressor.expectChunks total channels found = .ok expected → ∃ decoded,
      DeepCompressor.decodeChannels coders schedule channels envelope total =
        decoded.map List.flatten ∧
      Orderly (DeepCompressor.decodeChunk coders) expected decoded

/-- Under every schedule and in every interleaving, processing side by side is processing one
after the other. -/
theorem parallel_sequential (coders : Coders) (defaults : Defaults) (layer : Layer) :
    Sequential coders defaults layer := by
  constructor
  case refused =>
    intro fault failed schedule blocks
    rw [compress, uncompress, failed]
    exact ⟨rfl, rfl⟩
  case compressed =>
    intro prototype built schedule blocks
    refine ⟨compress_eq_oneByOne coders schedule built blocks, ?_⟩
    rw [compress, built, Outcome.ok_bind]
    exact orderly_runAll _ _ _
  case uncompressed =>
    intro prototype built schedule blocks
    refine ⟨uncompress_eq_oneByOne coders schedule built blocks, ?_⟩
    rw [uncompress, built, Outcome.ok_bind]
    exact orderly_runAll _ _ _
  case deep =>
    intro compressor bytes offsets schedule
    exact ⟨DeepCompressor.compress_schedule coders compressor bytes schedule .inOrder offsets,
      DeepCompressor.uncompress_schedule coders compressor bytes schedule .inOrder offsets⟩
  case chunks =>
    intro schedule level samples ranges
    exact ⟨_, rfl, rfl, orderly_runAll schedule _ _⟩
  case pieces =>
    intro schedule channels envelope total found expected read paired
    refine ⟨_, ?_, orderly_runAll schedule _ _⟩
    rw [DeepCompressor.decodeChannels, read, Outcome.ok_bind, paired, Outcome.ok_bind]
    cases schedule.runAll (DeepCompressor.decodeChunk coders) expected <;> rfl

/-- The first fault counts, also if the second block is processed before. -/
example : compress FlatCompressor.tileRecording.coders .reversed .initial
    FlatCompressor.sampledLayer [⟨-2, []⟩, ⟨99, []⟩] =
      .error (.capacity (.blockLength 0 448)) := by decide

end Batch

end PixelBlocks

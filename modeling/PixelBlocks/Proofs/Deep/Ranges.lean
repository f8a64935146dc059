import Mathlib.Tactic.MkIffOfInductiveProp
import PixelBlocks.Proofs.Checked
import PixelBlocks.Proofs.Deep.RoundTrip

/-!
# Ranges of deep channels

The sample data of a deep block is divided among its channels before anything is compressed.
The ranges are added up in checked sizes, and the first one that ends behind the data is a
fault. So a channel list that needs more than there is fails in one way, also where a size
overflows, and one that needs less fails in another. Only if all bytes are needed there are
ranges, and they follow each other from the first byte to the last.
-/

namespace PixelBlocks

namespace DeepCompressor

/-- Ranges from a start to an end, one for each channel in their order. Each is as long as its
samples, and each begins where the one before it ends. -/
@[mk_iff] structure Cover (total start stop : Nat) (channels : ChannelList)
    (ranges : List ChannelRange) : Prop where
  types : ranges.map ChannelRange.type = channels.map Channel.type
  sized : ∀ range ∈ ranges, range.stop = range.start + total * range.type.byteSize
  contiguous : start :: ranges.map ChannelRange.stop = ranges.map ChannelRange.start ++ [stop]

section Covers

variable {total start stop : Nat} {channel : Channel} {channels others : ChannelList}
  {ranges : List ChannelRange}

/-- Without channels nothing is divided. -/
theorem cover_nil_iff : Cover total start stop [] ranges ↔ start = stop ∧ ranges = [] := by
  rw [cover_iff]
  constructor
  · rintro ⟨types, -, contiguous⟩
    have none : ranges = [] := by simpa using types
    subst none
    simpa using contiguous
  · rintro ⟨rfl, rfl⟩
    simp

/-- The range of the first channel comes before a cover by the others. -/
theorem cover_cons_iff :
    Cover total start stop (channel :: others) ranges ↔
      ∃ rest, Cover total (start + total * channel.type.byteSize) stop others rest ∧
        ranges = ⟨channel.type, start, start + total * channel.type.byteSize⟩ :: rest := by
  constructor
  · rintro ⟨types, sized, contiguous⟩
    cases ranges with
    | nil => cases types
    | cons range rest =>
      obtain ⟨type, low, high⟩ := range
      simp only [List.map_cons, List.cons.injEq, List.cons_append, List.forall_mem_cons]
        at types sized contiguous
      obtain ⟨rfl, types⟩ := types
      obtain ⟨rfl, contiguous⟩ := contiguous
      obtain ⟨rfl, sized⟩ := sized
      exact ⟨rest, ⟨types, sized, contiguous⟩, rfl⟩
  · rintro ⟨rest, ⟨types, sized, contiguous⟩, rfl⟩
    refine ⟨?_, List.forall_mem_cons.mpr ⟨rfl, sized⟩, ?_⟩
    · rw [List.map_cons, List.map_cons, types]
    · rw [List.map_cons, List.map_cons, contiguous, List.cons_append]

/-- Every range of a cover lies between the start and the end. -/
theorem Cover.bounds (cover : Cover total start stop channels ranges) :
    start ≤ stop ∧
      ∀ range ∈ ranges, start ≤ range.start ∧ range.start ≤ range.stop ∧ range.stop ≤ stop := by
  induction channels generalizing start ranges with
  | nil =>
    obtain ⟨rfl, rfl⟩ := cover_nil_iff.mp cover
    exact ⟨Nat.le_refl start, nofun⟩
  | cons channel others inductionHypothesis =>
    obtain ⟨rest, later, rfl⟩ := cover_cons_iff.mp cover
    obtain ⟨ordered, inside⟩ := inductionHypothesis later
    refine ⟨by omega, List.forall_mem_cons.mpr ⟨⟨Nat.le_refl start, ?_, ordered⟩, ?_⟩⟩
    · exact Nat.le_add_right start _
    · intro range member
      have found := inside range member
      omega

end Covers

section Classes

variable {total available start : Nat} {channels : ChannelList}

/-- Ranges are found exactly if they are a cover, so there is only one. -/
theorem rangesFrom_eq_ok_iff (word : available < Size.bound) {ranges : List ChannelRange} :
    rangesFrom total available start channels = .ok ranges ↔
      Cover total start available channels ranges := by
  induction channels generalizing start ranges with
  | nil =>
    rw [cover_nil_iff, rangesFrom]
    by_cases covered : start = available <;> simp [covered, eq_comm]
  | cons channel others inductionHypothesis =>
    rw [rangesFrom_cons, Outcome.guard_eq_ok_iff, Outcome.bind_eq_ok_iff, cover_cons_iff]
    simp only [inductionHypothesis, Outcome.pure_eq_ok, Except.ok.injEq]
    constructor
    · rintro ⟨-, rest, later, same⟩
      exact ⟨rest, later, same.symm⟩
    · rintro ⟨rest, later, same⟩
      have ordered := later.bounds.1
      exact ⟨by omega, rest, later, same.symm⟩

/-- Channels that need more bytes than there are fail at the first one whose range ends behind
the data. -/
theorem exists_pastEnd (word : available < Size.bound) (inside : start ≤ available)
    (excess : available < start + total * channels.bytesPerPixel) :
    ∃ front channel back, channels = front ++ channel :: back ∧
      start + total * ChannelList.bytesPerPixel front ≤ available ∧
      let stop := start + total * (ChannelList.bytesPerPixel front + channel.type.byteSize)
      available < stop ∧ rangesFrom total available start channels =
        .error (.capacity (pastEnd channel stop available)) := by
  induction channels generalizing start with
  | nil =>
    rw [ChannelList.bytesPerPixel] at excess
    omega
  | cons channel others inductionHypothesis =>
    rw [rangesFrom_cons]
    by_cases here : available < start + total * channel.type.byteSize
    · refine ⟨[], channel, others, rfl, inside, ?_⟩
      rw [ChannelList.bytesPerPixel, Nat.zero_add, if_pos (.inl here)]
      exact ⟨here, rfl⟩
    · have inner : ¬ (available < start + total * channel.type.byteSize ∨
          Size.bound ≤ start + total * channel.type.byteSize) := by omega
      rw [ChannelList.bytesPerPixel, Nat.mul_add, ← Nat.add_assoc] at excess
      obtain ⟨front, last, back, split, before, behind, found⟩ :=
        inductionHypothesis (Nat.not_lt.mp here) excess
      refine ⟨channel :: front, last, back, congrArg (channel :: ·) split, ?_⟩
      rw [ChannelList.bytesPerPixel, Nat.add_assoc, Nat.mul_add,
        Nat.mul_add _ channel.type.byteSize, ← Nat.add_assoc, ← Nat.add_assoc, if_neg inner, found]
      exact ⟨before, behind, rfl⟩

/-- Channels that need fewer bytes than there are fail behind the last one. -/
theorem rangesFrom_eq_invalid (word : available < Size.bound)
    (short : start + total * channels.bytesPerPixel < available) :
    rangesFrom total available start channels =
      .error (.invalid (.deepBlockLength available
        (start + total * channels.bytesPerPixel))) := by
  induction channels generalizing start with
  | nil =>
    rw [ChannelList.bytesPerPixel, Nat.mul_zero, Nat.add_zero] at short ⊢
    rw [rangesFrom, if_neg (Nat.ne_of_lt short)]
  | cons channel others inductionHypothesis =>
    rw [ChannelList.bytesPerPixel, Nat.mul_add, ← Nat.add_assoc] at short ⊢
    rw [rangesFrom_cons]
    dsimp only
    rw [if_neg (by omega), inductionHypothesis short]
    rfl

end Classes

end DeepCompressor

namespace Checked

open DeepCompressor

/-- The bytes of a range, if sample data has them. -/
def piece (samples : Bytes) (range : ChannelRange) : Checked Piece :=
  if range.start ≤ range.stop ∧ range.stop ≤ samples.length then .ok (range.piece samples)
  else .error .outOfRange

/-- The envelope of the chunks of all channels, after all slices of the sample data were taken. -/
def encodeChannels (coders : Coders) (schedule : Schedule) (level : UInt8) (samples : Bytes)
    (ranges : List ChannelRange) : Checked Bytes := do
  let pieces ← ranges.mapM (piece samples)
  ofOutcome do
    let chunks ← schedule.runAll
      (fun piece => Chunk.encode coders (.ofSampleType piece.type level) piece.bytes) pieces
    Envelope.encode chunks

/-- Compressing the samples of a block, with slices that have to be within the sample data. -/
def compressSamples (coders : Coders) (schedule : Schedule) (compressor : DeepCompressor)
    (samples : Bytes) (offsets : List Int32) : Checked Bytes := do
  let total ← ofOutcome (Offsets.total offsets)
  let ranges ← ofOutcome (channelRanges compressor.channels total samples.length)
  if compressor.method = .zstd then
    encodeChannels coders schedule compressor.zstdLevel samples ranges
  else .ok (compressor.packed coders samples)

/-- The ranges of a cover have their slices. -/
theorem mapM_piece {total : Nat} {channels : ChannelList} {samples : Bytes}
    {ranges : List ChannelRange}
    (cover : Cover total 0 samples.length channels ranges) :
    ranges.mapM (piece samples) = .ok (ranges.map (ChannelRange.piece samples)) := by
  refine Outcome.mapM_eq_ok_map fun range member => ?_
  obtain ⟨-, inside⟩ := cover.bounds
  exact if_pos (inside range member).2

/-- All slices that compressing takes are within the sample data. -/
theorem compressSamples_eq_ofOutcome (coders : Coders) (schedule : Schedule)
    (compressor : DeepCompressor) {samples : Bytes} (word : samples.length < Size.bound)
    (offsets : List Int32) :
    compressSamples coders schedule compressor samples offsets =
      ofOutcome (compressor.compress coders schedule samples offsets).1 := by
  rw [compressSamples, compress_fst]
  refine bind_eq_ofOutcome rfl fun total _ => bind_eq_ofOutcome rfl fun ranges found => ?_
  by_cases method : compressor.method = .zstd
  · have slices := mapM_piece ((rangesFrom_eq_ok_iff word).mp found)
    rw [if_pos method, if_pos method, encodeChannels, slices, Outcome.ok_bind,
      encodeChannels_eq_mapM, Schedule.runAll_eq_mapM, List.mapM_map]
    rfl
  · rw [if_neg method, if_neg method]
    rfl

end Checked

namespace DeepCompressor

/-- A fault of the ranges is the outcome of compressing for every method, before a coder runs.
The instance only forgets what it returned before. -/
theorem compress_eq_of_ranges_error (coders : Coders) (schedule : Schedule)
    (compressor : DeepCompressor) {samples : Bytes} {offsets : List Int32} {total : Nat}
    (counted : Offsets.total offsets = .ok total) {fault : Fault}
    (failed : channelRanges compressor.channels total samples.length = .error fault) :
    compressor.compress coders schedule samples offsets = (.error fault, compressor.started) := by
  have channels : compressor.started.channels = compressor.channels := rfl
  simp only [compress, counted, Outcome.ok_bind, channels, failed]

/-- There are ranges, the capacity is exceeded, or the data is invalid, as the number of bytes
that all channels need compares with that of the sample data. -/
theorem channelRanges_classes (channels : ChannelList) (total : Nat) {available : Nat}
    (word : available < Size.bound) :
    let needed := total * channels.bytesPerPixel
    let found := channelRanges channels total available
    ((∃ ranges, found = .ok ranges) ↔ needed = available) ∧
      ((∃ cause, found = .error (.capacity cause)) ↔ available < needed) ∧
      ((∃ cause, found = .error (.invalid cause)) ↔ needed < available) := by
  have origin : 0 + total * channels.bytesPerPixel = total * channels.bytesPerPixel :=
    Nat.zero_add _
  intro needed found
  rcases Nat.lt_trichotomy needed available with short | covered | excess
  · have failed : found = .error (.invalid (.deepBlockLength available _)) :=
      rangesFrom_eq_invalid word (by rwa [origin])
    simp [failed, short, Nat.ne_of_lt short, Nat.le_of_lt short]
  · obtain ⟨ranges, divided⟩ : ∃ ranges, found = .ok ranges :=
      exists_rangesFrom (by rw [origin, ← covered]) word
    simp [divided, covered]
  · obtain ⟨front, channel, back, -, -, -, failed⟩ :=
      exists_pastEnd word (Nat.zero_le available) (by rwa [origin])
    have refused : found = .error (.capacity _) := failed
    simp [refused, excess, Nat.ne_of_gt excess, Nat.le_of_lt excess]

/-- How the sample data of a block is divided, for every list of channels and all sizes. There
are ranges exactly if the channels need as many bytes as there are, and these are the only
cover of the sample data. It is a fault of capacity exactly if they need more, also if a size
overflows, and the data is invalid exactly if they need less. Instances with these channels
fail in the same way for every method and all coders, and otherwise only slice what the sample
data has. -/
theorem sample_ranges (channels : ChannelList) (total available : Nat)
    (word : available < Size.bound) :
    let needed := total * channels.bytesPerPixel
    let found := channelRanges channels total available
    (((∃ ranges, found = .ok ranges) ↔ needed = available) ∧
      ∀ ranges, found = .ok ranges ↔ Cover total 0 available channels ranges) ∧
    ((∃ cause, found = .error (.capacity cause)) ↔ available < needed) ∧
    ((∃ cause, found = .error (.invalid cause)) ↔ needed < available) ∧
    ∀ (coders : Coders) (schedule : Schedule) (compressor : DeepCompressor) (samples : Bytes)
      (offsets : List Int32), compressor.channels = channels → samples.length = available →
        Offsets.total offsets = .ok total →
        (∀ fault, found = .error fault →
          compressor.compress coders schedule samples offsets =
            (.error fault, compressor.started)) ∧
        Checked.compressSamples coders schedule compressor samples offsets =
          Checked.ofOutcome (compressor.compress coders schedule samples offsets).1 := by
  intro needed found
  obtain ⟨divided, excess, short⟩ := channelRanges_classes channels total word
  refine ⟨⟨divided, fun ranges => rangesFrom_eq_ok_iff word⟩, excess, short, ?_⟩
  rintro coders schedule compressor samples offsets rfl rfl counted
  exact ⟨fun fault => compress_eq_of_ranges_error coders schedule compressor counted,
    Checked.compressSamples_eq_ofOutcome coders schedule compressor word offsets⟩

/-- Forty bytes hold four samples of three types. More samples are a fault of capacity, also
if their size overflows, and one more byte is invalid for an instance of any method. -/
theorem sample_ranges_types :
    channelRanges deepLayer.channels 4 40 =
        .ok [⟨.half, 0, 8⟩, ⟨.float, 8, 24⟩, ⟨.uint, 24, 40⟩] ∧
      (∃ cause, channelRanges deepLayer.channels 5 40 = .error (.capacity cause)) ∧
      (∃ cause, channelRanges deepLayer.channels 0x4000000000000000 40 =
        .error (.capacity cause)) ∧
      deepWriter.compress deepRecording.coders .reversed (deepSamples ++ [0]) [1, 1, 4] =
        (.error (.invalid (.deepBlockLength 41 40)), deepWriter.started) := by
  obtain ⟨⟨-, exact⟩, -⟩ := sample_ranges deepLayer.channels 4 40 (by decide)
  obtain ⟨-, more, -⟩ := sample_ranges deepLayer.channels 5 40 (by decide)
  obtain ⟨-, overflow, -⟩ := sample_ranges deepLayer.channels 0x4000000000000000 40 (by decide)
  obtain ⟨-, -, -, calls⟩ := sample_ranges deepLayer.channels 4 41 (by decide)
  refine ⟨(exact _).mpr ⟨rfl, by decide, rfl⟩, more.mpr (by decide), overflow.mpr (by decide), ?_⟩
  exact (calls deepRecording.coders .reversed deepWriter (deepSamples ++ [0]) [1, 1, 4] rfl rfl
    rfl).1 _ rfl

end DeepCompressor

end PixelBlocks

import PixelBlocks.Flat
import PixelBlocks.Proofs.Corruption
import PixelBlocks.Proofs.Flat.Corruption
import PixelBlocks.Proofs.Transform.PlaneInverse
import PixelBlocks.Proofs.Transform.Segments

/-!
# Planes and blocks of a rectangle stand for each other

The rows and channels of a rectangle fix how many bytes its planes have. All planes of this
length are those of a block, and of one only, whose floats end in a zero byte; planes of any
other length are invalid. Nothing is asked of the channels and the rectangle but that they
have a size, because samples are counted the same way for the size and for the planes.
-/

namespace PixelBlocks

/-- The rows of a rectangle as words, from its first to its last. -/
def Rectangle.rowWords (bounds : Rectangle) : List Int32 :=
  (List.range bounds.size.y.toNat).map fun index => bounds.position.y + Int32.ofNat index

namespace Planes

/-- Segments of the samples that each channel has in each row, row by row and within a row
channel by channel. -/
structure Listed (channels : ChannelList) (bounds : Rectangle) (rows : List Int32)
    (segments : List Segment) (samples : Int32 → Channel → Nat) : Prop where
  counted : ∀ row ∈ rows, ∀ channel ∈ channels,
    channel.samplesInRow row bounds = .ok (samples row channel)
  listed : segments = rows.flatMap fun row => channels.map fun channel =>
    ⟨channel.type, samples row channel⟩

/-- Planes of as many bytes as segments ask for and blocks of a size whose floats end in a
zero byte stand for each other. -/
structure Correspond (segments : List Segment) (size : Nat) : Prop where
  decoded : ∀ planes, planes.length = planeSize segments →
    ∃ raw, decode segments planes = .ok raw ∧ raw.length = size ∧ encode segments raw = .ok planes
  refused : ∀ planes, planes.length ≠ planeSize segments →
    ∃ cause, decode segments planes = .error (.invalid cause)
  image : ∀ raw, (∃ planes, decode segments planes = .ok raw) ↔
    raw.length = size ∧ FloatsCut segments raw
  encoded : ∀ raw, raw.length = size → ∃ planes, encode segments raw = .ok planes

/-- How many samples a channel has in a row, where they can be counted. -/
def samplesAt (bounds : Rectangle) (row : Int32) (channel : Channel) : Nat :=
  (channel.samplesInRow row bounds).toOption.getD 0

variable {channels : ChannelList} {bounds : Rectangle} {segments : List Segment}

/-- A row has a segment for each channel. -/
theorem listed_rowSegments {row : Int32}
    (found : rowSegments bounds row channels = .ok segments) :
    Listed channels bounds [row] segments (samplesAt bounds) := by
  have related := Outcome.mapM_eq_ok_iff.mp found
  clear found
  induction related with
  | nil => exact ⟨by simp, rfl⟩
  | @cons channel segment others segments here _ inductionHypothesis =>
    obtain ⟨samples, counted, same⟩ := Outcome.bind_eq_ok_iff.mp here
    cases same
    have sameCount : samplesAt bounds row channel = samples := by rw [samplesAt, counted]; rfl
    obtain ⟨countedOthers, listed⟩ := inductionHypothesis
    constructor
    · refine List.forall_mem_singleton.mpr (List.forall_mem_cons.mpr ⟨?_, ?_⟩)
      · rw [counted, sameCount]
      · exact List.forall_mem_singleton.mp countedOthers
    · rw [listed, List.flatMap_singleton, List.flatMap_singleton, List.map_cons, sameCount]

/-- The segments of rows follow those of the rows before them. -/
theorem Listed.append {above below : List Int32} {front back : List Segment}
    {samples : Int32 → Channel → Nat} (first : Listed channels bounds above front samples)
    (second : Listed channels bounds below back samples) :
    Listed channels bounds (above ++ below) (front ++ back) samples where
  counted := List.forall_mem_append.mpr ⟨first.counted, second.counted⟩
  listed := by rw [first.listed, second.listed, List.flatMap_append]

/-- Consecutive rows have a segment for each channel in each row. -/
theorem listed_segmentsFrom {count : Nat} {row : Int32}
    (found : segmentsFrom channels bounds count row = .ok segments) :
    Listed channels bounds ((List.range count).map fun index => row + Int32.ofNat index) segments
      (samplesAt bounds) := by
  induction count generalizing row segments with
  | zero =>
    cases found
    exact ⟨by simp, rfl⟩
  | succ count inductionHypothesis =>
    obtain ⟨here, first, found⟩ := Outcome.bind_eq_ok_iff.mp found
    obtain ⟨below, later, same⟩ := Outcome.bind_eq_ok_iff.mp found
    cases same
    have rows : (List.range (count + 1)).map (fun index => row + Int32.ofNat index) =
        [row] ++ (List.range count).map fun index => row + 1 + Int32.ofNat index := by
      simp [List.range_succ_eq_map, Int32.ofNat_add, Int32.add_assoc, Int32.add_comm 1,
        Function.comp_def]
    rw [rows]
    exact (listed_rowSegments first).append (inductionHypothesis later)

/-- The segments of a rectangle are those of its rows and channels. -/
theorem listed_segments (found : Planes.segments channels bounds = .ok segments) :
    Listed channels bounds bounds.rowWords segments (samplesAt bounds) := by
  obtain ⟨corner, -, found⟩ := Outcome.bind_eq_ok_iff.mp found
  exact listed_segmentsFrom found

/-- Segments that take the bytes of a block have planes that stand for blocks. -/
theorem correspond_rawSize (segments : List Segment) : Correspond segments (rawSize segments) where
  decoded _ filled := exists_decode filled
  refused planes other := by
    rcases (invalidAtWorst_decode segments planes).cases with ⟨raw, decoded⟩ | invalid
    · exact absurd (length_of_decode decoded) other
    · exact invalid
  image _ := exists_decode_eq_iff
  encoded raw sized := by
    obtain ⟨planes, encoded, -⟩ := exists_encode sized
    exact ⟨planes, encoded⟩

/-- Halves at every other pixel of every other row, floats and integers at all pixels. -/
def subsampledChannels : ChannelList :=
  [⟨Name.ofString "BY", .half, false, ⟨2, 2⟩⟩, .full "Y" .uint, .full "Z" .float]

end Planes

end PixelBlocks

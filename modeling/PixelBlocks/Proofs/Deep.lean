import PixelBlocks.Deep
import PixelBlocks.Proofs.Layer
import PixelBlocks.Proofs.Transform.Truncation

/-!
# Instances of a deep layer

All instances that were made for a layer agree on its method and channels. The sample
data of a block is cut into one piece for each channel, as long as the number of samples
and the type of the channel ask for.
-/

namespace PixelBlocks.DeepCompressor

/-- An instance that a process made for a layer and used any number of times: its
buffers hold anything. -/
def MadeFor (layer : Layer) (compressor : DeepCompressor) : Prop :=
  ∃ defaults : Defaults, defaults.Reachable ∧
    build defaults layer = .ok { compressor with buffers := .empty }

/-- What an instance takes over from its layer, and the levels that it may have. -/
structure Serves (layer : Layer) (compressor : DeepCompressor) : Prop where
  accepted : layer.Accepted
  implemented : implements layer.method = true
  method : compressor.method = layer.method
  channels : compressor.channels = layer.channels
  zipLevel : compressor.zipLevel ≤ 9
  zstdLevel : 1 ≤ compressor.zstdLevel ∧ compressor.zstdLevel ≤ 9

/-- Making an instance takes everything from the layer but the levels. -/
theorem MadeFor.serves {layer : Layer} {compressor : DeepCompressor}
    (made : MadeFor layer compressor) : Serves layer compressor := by
  obtain ⟨defaults, reachable, built⟩ := made
  obtain ⟨⟨⟩, valid, built⟩ := Outcome.bind_eq_ok_iff.mp built
  have accepted := Layer.validate_eq_ok_iff.mp valid
  by_cases flat : ¬ layer.deep
  · rw [if_pos flat] at built
    cases built
  · rw [if_neg flat] at built
    by_cases missing : ¬ implements layer.method
    · rw [if_pos missing] at built
      cases built
    · rw [if_neg missing] at built
      simp only [Outcome.pure_eq_ok, Except.ok.injEq, DeepCompressor.mk.injEq] at built
      obtain ⟨method, channels, zipLevel, zstdLevel, -⟩ := built
      refine ⟨accepted, Decidable.not_not.mp missing, method.symm, channels.symm, ?_, ?_⟩
      · rw [← zipLevel]
        exact reachable.valid.zip
      · rw [← zstdLevel]
        exact accepted.effectiveZstdLevel_bounds reachable.valid

section Pieces

/-- The samples of one channel of a block. -/
structure Piece where
  type : SampleType
  bytes : Bytes

/-- The pieces of the sample data, in the order of the channels. -/
def pieces (total : Nat) : ChannelList → Bytes → List Piece
  | [], _ => []
  | channel :: others, samples =>
    let length := total * channel.type.byteSize
    ⟨channel.type, samples.take length⟩ :: pieces total others (samples.drop length)

/-- The piece of a range. -/
def ChannelRange.piece (samples : Bytes) (range : ChannelRange) : Piece :=
  ⟨range.type, range.slice samples⟩

/-- There is a piece for every channel, of its type. -/
@[simp] theorem map_type_pieces (total : Nat) (channels : ChannelList) (samples : Bytes) :
    (pieces total channels samples).map Piece.type = channels.map Channel.type := by
  induction channels generalizing samples with
  | nil => rfl
  | cons channel others inductionHypothesis => simp [pieces, inductionHypothesis]

/-- Sample data of the right length has a full first piece, and the right length without it. -/
theorem length_drop_first {total : Nat} {channel : Channel} {others : ChannelList}
    {samples : Bytes}
    (sized : samples.length = total * ChannelList.bytesPerPixel (channel :: others)) :
    (samples.take (total * channel.type.byteSize)).length = total * channel.type.byteSize ∧
      (samples.drop (total * channel.type.byteSize)).length =
        total * ChannelList.bytesPerPixel others := by
  rw [ChannelList.bytesPerPixel, Nat.mul_add] at sized
  rw [List.length_take, List.length_drop]
  omega

/-- Pieces of sample data of the right length are as long as their type asks for. -/
theorem length_of_mem_pieces {total : Nat} {channels : ChannelList} {samples : Bytes}
    (sized : samples.length = total * channels.bytesPerPixel) {piece : Piece}
    (member : piece ∈ pieces total channels samples) :
    piece.bytes.length = total * piece.type.byteSize := by
  induction channels generalizing samples with
  | nil => simp [pieces] at member
  | cons channel others inductionHypothesis =>
    obtain ⟨first, left⟩ := length_drop_first sized
    rcases List.mem_cons.mp member with rfl | later
    · exact first
    · exact inductionHypothesis left later

/-- The fault of a channel that needs more bytes than there are. The end of its range is named
if it is a size. -/
def pastEnd (channel : Channel) (stop available : Nat) : CapacityFault :=
  if stop < Size.bound then .channelEnd channel.name stop available else .channelRange

/-- One step of the division: a channel fails exactly if its range ends behind the sample data
or the end is no size, and otherwise its range comes before those of the other channels. -/
theorem rangesFrom_cons (total available start : Nat) (channel : Channel) (others : ChannelList) :
    rangesFrom total available start (channel :: others) =
      let stop := start + total * channel.type.byteSize
      if available < stop ∨ Size.bound ≤ stop then
        .error (.capacity (pastEnd channel stop available))
      else do
        let rest ← rangesFrom total available stop others
        return ⟨channel.type, start, stop⟩ :: rest := by
  rw [rangesFrom]
  dsimp only
  by_cases fits : start + total * channel.type.byteSize < Size.bound
  · have sum : (Size.mul? total channel.type.byteSize).bind (Size.add? start) =
        some (start + total * channel.type.byteSize) :=
      Size.mul?_bind_add?_eq_some_iff.mpr ⟨rfl, fits⟩
    simp only [sum, pastEnd, if_pos fits, or_iff_left (Nat.not_le.mpr fits)]
  · have overflow : (Size.mul? total channel.type.byteSize).bind (Size.add? start) = none := by
      refine Option.eq_none_iff_forall_ne_some.mpr fun sum found => fits ?_
      obtain ⟨rfl, small⟩ := Size.mul?_bind_add?_eq_some_iff.mp found
      exact small
    rw [overflow, pastEnd, if_neg fits, if_pos (.inr (Nat.not_lt.mp fits))]

/-- Ranges from a start on cut the sample data behind it into pieces, up to its end. -/
theorem map_piece_rangesFrom {total available start : Nat} {channels : ChannelList}
    {ranges : List ChannelRange} (found : rangesFrom total available start channels = .ok ranges)
    (samples : Bytes) :
    available = start + total * channels.bytesPerPixel ∧
      ranges.map (ChannelRange.piece samples) =
        pieces total channels (samples.drop start) := by
  induction channels generalizing start ranges with
  | nil =>
    by_cases covered : start = available
    · rw [rangesFrom, if_pos covered] at found
      cases found
      exact ⟨covered.symm, rfl⟩
    · rw [rangesFrom, if_neg covered] at found
      cases found
  | cons channel others inductionHypothesis =>
    rw [rangesFrom_cons, Outcome.guard_eq_ok_iff, Outcome.bind_eq_ok_iff] at found
    obtain ⟨-, rest, later, same⟩ := found
    cases same
    obtain ⟨covered, cut⟩ := inductionHypothesis later
    constructor
    · rw [covered, ChannelList.bytesPerPixel, Nat.mul_add, Nat.add_assoc]
    · rw [List.map_cons, cut, pieces, List.drop_drop, ChannelRange.piece, ChannelRange.slice,
        Nat.add_sub_cancel_left]

/-- The ranges of the channels, where they exist, cut the sample data into its pieces, and
the pieces cover it. -/
theorem map_piece_channelRanges {total : Nat} {channels : ChannelList} {samples : Bytes}
    {ranges : List ChannelRange}
    (found : channelRanges channels total samples.length = .ok ranges) :
    samples.length = total * channels.bytesPerPixel ∧
      ranges.map (ChannelRange.piece samples) = pieces total channels samples := by
  obtain ⟨covered, cut⟩ := map_piece_rangesFrom found samples
  rw [Nat.zero_add] at covered
  rw [List.drop_zero] at cut
  exact ⟨covered, cut⟩

/-- Ranges from a start on exist if the pieces behind it cover the sample data. -/
theorem exists_rangesFrom {total available start : Nat} {channels : ChannelList}
    (covered : available = start + total * channels.bytesPerPixel)
    (word : available < Size.bound) :
    ∃ ranges, rangesFrom total available start channels = .ok ranges := by
  induction channels generalizing start with
  | nil =>
    have whole : start = available := covered.symm
    exact ⟨[], by rw [rangesFrom, if_pos whole]⟩
  | cons channel others inductionHypothesis =>
    rw [ChannelList.bytesPerPixel, Nat.mul_add] at covered
    have behind : available = start + total * channel.type.byteSize +
        total * ChannelList.bytesPerPixel others := by
      rw [covered, Nat.add_assoc]
    obtain ⟨rest, later⟩ := inductionHypothesis behind
    refine ⟨⟨channel.type, start, start + total * channel.type.byteSize⟩ :: rest, ?_⟩
    rw [rangesFrom_cons]
    dsimp only
    rw [if_neg (by omega), later]
    rfl

end Pieces

section Settling

/-- A piece after its chunk was decoded: floats are truncated. -/
def Piece.settle (piece : Piece) : Piece :=
  match piece.type with
  | .float => { piece with bytes := Truncation.truncate piece.bytes }
  | .half | .uint => piece

/-- Sample data after it went through chunks: the pieces of all float channels are
truncated, and no other byte changes. -/
def settled (total : Nat) (channels : ChannelList) (samples : Bytes) : Bytes :=
  ((pieces total channels samples).map fun piece => piece.settle.bytes).flatten

/-- A settled piece is its type and its settled bytes. -/
theorem Piece.mk_settle (type : SampleType) (bytes : Bytes) :
    (⟨type, (Piece.mk type bytes).settle.bytes⟩ : Piece) = (Piece.mk type bytes).settle := by
  cases type <;> rfl

/-- Settling a piece keeps the number of bytes. -/
@[simp] theorem Piece.length_settle (piece : Piece) :
    piece.settle.bytes.length = piece.bytes.length := by
  obtain ⟨type, bytes⟩ := piece
  cases type <;> simp [settle]

/-- A settled piece is left alone. -/
@[simp] theorem Piece.settle_settle (piece : Piece) : piece.settle.settle = piece.settle := by
  obtain ⟨type, bytes⟩ := piece
  cases type <;> simp [settle]

/-- A chunk with the parameters of a type settles the piece. -/
theorem Piece.bytes_settle (piece : Piece) :
    piece.settle.bytes = Chunk.settled (.ofSampleType piece.type) piece.bytes := by
  obtain ⟨type, bytes⟩ := piece
  cases type <;> rfl

/-- The pieces of settled sample data are the settled pieces. -/
theorem pieces_settled {total : Nat} {channels : ChannelList} {samples : Bytes}
    (sized : samples.length = total * channels.bytesPerPixel) :
    pieces total channels (settled total channels samples) =
      (pieces total channels samples).map Piece.settle := by
  induction channels generalizing samples with
  | nil => rfl
  | cons channel others inductionHypothesis =>
    obtain ⟨first, left⟩ := length_drop_first sized
    let piece : Piece := ⟨channel.type, samples.take (total * channel.type.byteSize)⟩
    have front : piece.settle.bytes.length = total * channel.type.byteSize :=
      piece.length_settle.trans first
    have whole : settled total (channel :: others) samples = piece.settle.bytes ++
        settled total others (samples.drop (total * channel.type.byteSize)) := rfl
    have kept : (⟨channel.type, piece.settle.bytes⟩ : Piece) = piece.settle :=
      Piece.mk_settle channel.type _
    rw [whole, pieces, List.take_left' front, List.drop_left' front, inductionHypothesis left,
      kept, pieces, List.map_cons]

/-- Settled sample data is left alone. -/
theorem settled_settled {total : Nat} {channels : ChannelList} {samples : Bytes}
    (sized : samples.length = total * channels.bytesPerPixel) :
    settled total channels (settled total channels samples) = settled total channels samples := by
  rw [settled, pieces_settled sized, List.map_map]
  simp [settled, Function.comp_def]

/-- Settling keeps the number of bytes. -/
theorem length_settled {total : Nat} {channels : ChannelList} {samples : Bytes}
    (sized : samples.length = total * channels.bytesPerPixel) :
    (settled total channels samples).length = samples.length := by
  induction channels generalizing samples with
  | nil =>
    rw [sized]
    rfl
  | cons channel others inductionHypothesis =>
    have later := inductionHypothesis (length_drop_first sized).2
    rw [settled] at later ⊢
    simp only [pieces, List.map_cons, List.flatten_cons, List.length_append, Piece.length_settle,
      later]
    rw [← List.length_append, List.take_append_drop]

end Settling

end PixelBlocks.DeepCompressor

import PixelBlocks.Proofs.Checked
import PixelBlocks.Proofs.Chunk
import PixelBlocks.Proofs.Transform.Planes
import PixelBlocks.Proofs.Transform.Preparation
import PixelBlocks.Proofs.Transform.Unshuffle
import PixelBlocks.Transform.RunLength

/-!
# Decoders take no step without a result

Whatever bytes a decoder is given, its sums of samples fit their words, it splits no more
bytes than there are, and it reads its tables only where they have an entry. Planes are
tables whose places are row times columns plus column, and counts of samples keep such
places inside. A chunk is split at the size of its dictionary, which was compared with the
size of the chunk before.
-/

namespace PixelBlocks.Checked

section Preparation

/-- The sample after a previous one, in signed 16-bit words of which the lowest byte is
kept. -/
def sampleAfter (previous : Int) (step : UInt8) : Checked UInt8 := do
  let raised ← signed 16 (previous + step.toNat)
  let sample ← signed 16 (raised - 128)
  return UInt8.ofInt sample

/-- Integrates two differences at a time, in steps that are checked. -/
def integratePairs : (previous : Int) → Bytes → Checked Bytes
  | previous, first :: second :: rest => do
    let sample ← sampleAfter previous first
    let next ← sampleAfter sample.toNat second
    let others ← integratePairs next.toNat rest
    return sample :: next :: others
  | previous, [last] => do
    let sample ← sampleAfter previous last
    return [sample]
  | _, [] => .ok []

/-- The samples with the given differences, in steps that are checked. -/
def toSamples : Bytes → Checked Bytes
  | [] => .ok []
  | first :: rest => do
    let others ← integratePairs first.toNat rest
    return first :: others

/-- Puts the bytes of the second half between those of the first half, in steps that are
checked: the split and the copy of the result over the bytes. -/
def interleave (separated : Bytes) : Checked Bytes := do
  let (first, second) ← cut ((separated.length + 1) / 2) separated
  overwrite separated (Separation.alternate first second)

/-- The block of a prepared form, in steps that are checked. -/
def restore (prepared : Bytes) : Checked Bytes := do
  let separated ← toSamples prepared
  interleave separated

/-- The sum of two bytes less 128 is a signed 16-bit word. -/
theorem sampleAfter_eq_ok (previous step : UInt8) :
    sampleAfter previous.toNat step = .ok (previous + step - 128) := by
  have low := previous.toNat_lt
  have high := step.toNat_lt
  have byte : UInt8.ofInt (previous.toNat + step.toNat - 128) = previous + step - 128 := by
    apply UInt8.toNat_inj.mp
    rw [UInt8.toNat_sub, UInt8.toNat_add]
    simp only [UInt8.ofInt, UInt8.toNat_ofNat', UInt8.reduceToNat]
    omega
  rw [sampleAfter, signed_eq_ok (by omega) (by omega), Outcome.ok_bind,
    signed_eq_ok (by omega) (by omega), Outcome.ok_bind, byte]
  rfl

/-- Integration leaves no word. -/
theorem integratePairs_eq_ok : ∀ (previous : UInt8) (steps : Bytes),
    integratePairs previous.toNat steps = .ok (Differences.integrate previous steps)
  | _, [] => rfl
  | previous, [last] => by
    rw [integratePairs, sampleAfter_eq_ok]
    rfl
  | previous, first :: second :: rest => by
    rw [integratePairs, sampleAfter_eq_ok, Outcome.ok_bind, sampleAfter_eq_ok, Outcome.ok_bind,
      integratePairs_eq_ok]
    rfl

/-- Samples are found without leaving a word. -/
theorem toSamples_eq_ok (differences : Bytes) :
    toSamples differences = .ok (Differences.toSamples differences) := by
  cases differences with
  | nil => rfl
  | cons first rest =>
    rw [toSamples, integratePairs_eq_ok, Differences.toSamples,
      Differences.integratePairs_eq_integrate]
    rfl

/-- Taking bytes in turn takes all of them, if there are as many of both or one more of the
first. -/
theorem length_alternate : ∀ {first second : Bytes},
    first.length = second.length ∨ first.length = second.length + 1 →
      (Separation.alternate first second).length = first.length + second.length
  | [], [], _ => rfl
  | [], odd :: restOdd, sized => by simp at sized
  | even :: restEven, [], sized => by
    have none : restEven = [] := by simpa using sized
    rw [none]
    rfl
  | even :: restEven, odd :: restOdd, sized => by
    simp only [List.length_cons, Nat.add_right_cancel_iff] at sized
    simp only [Separation.alternate, List.length_cons, length_alternate sized]
    omega

/-- The halves are split within the bytes, and put together again they are as many. -/
theorem interleave_eq_ok (separated : Bytes) :
    interleave separated = .ok (Separation.interleave separated) := by
  have half : (separated.length + 1) / 2 ≤ separated.length := by omega
  have front : (separated.take ((separated.length + 1) / 2)).length =
      (separated.length + 1) / 2 := by
    rw [List.length_take, Nat.min_eq_left half]
  have back : (separated.drop ((separated.length + 1) / 2)).length =
      separated.length - (separated.length + 1) / 2 := List.length_drop
  have same : separated.length =
      (Separation.alternate (separated.take ((separated.length + 1) / 2))
        (separated.drop ((separated.length + 1) / 2))).length := by
    rw [length_alternate (by omega)]
    omega
  rw [interleave, cut_eq_ok half, Outcome.ok_bind]
  exact overwrite_eq_ok same

/-- A prepared form is undone within its words and its bytes. -/
theorem restore_eq_ok (prepared : Bytes) :
    restore prepared = .ok (Preparation.restore prepared) := by
  rw [restore, toSamples_eq_ok, Outcome.ok_bind, interleave_eq_ok]
  rfl

end Preparation

section RunLength

open PixelBlocks.RunLength

/-- Reads the packet behind a count byte, in steps that are checked. The count is a signed
byte, which is negated for literal bytes. -/
def takePacket (count : UInt8) (following : Bytes) : Checked (Packet × Bytes) :=
  let signedCount := count.toInt8.toInt
  if signedCount < 0 then do
    let negated ← signed 32 (-signedCount)
    let length ← size negated
    if length ≤ following.length then do
      let (values, rest) ← cut length following
      return (.literal values, rest)
    else .error (.fault (.invalid .runLength))
  else
    match following with
    | [] => .error (.fault (.invalid .runLength))
    | value :: rest => do
      let extra ← size signedCount
      let repeats ← size (extra + 1)
      return (.repeated repeats value, rest)

/-- A count byte as a signed byte. -/
theorem toInt_toInt8 (count : UInt8) :
    count.toInt8.toInt = if count < 128 then (count.toNat : Int) else count.toNat - 256 := by
  have half : (128 : UInt8).toNat = 128 := rfl
  rw [← Int8.toInt_toBitVec, UInt8.toBitVec_toInt8, BitVec.toInt_eq_toNat_cond,
    UInt8.toNat_toBitVec]
  simp only [UInt8.lt_iff_toNat_lt, half]
  split <;> split <;> omega

/-- Counts of packets are sizes, and literal bytes are cut from as many. -/
theorem takePacket_eq_ofOutcome (count : UInt8) (following : Bytes) :
    takePacket count following = ofOutcome (RunLength.takePacket count following) := by
  have word := count.toNat_lt
  unfold takePacket RunLength.takePacket
  rw [toInt_toInt8]
  by_cases repeats : count < 128
  · have positive : ¬ (count.toNat : Int) < 0 := by omega
    simp only [if_pos repeats, if_neg positive]
    cases following with
    | nil => rfl
    | cons value rest =>
      have here : size (count.toNat : Int) = .ok count.toNat := size_word (by omega)
      have next : size ((count.toNat : Int) + 1) = .ok (count.toNat + 1) := by
        have sum : (count.toNat : Int) + 1 = (count.toNat + 1 : Nat) := by omega
        rw [sum]
        exact size_word (by omega)
      dsimp only
      rw [here, Outcome.ok_bind, next]
      rfl
  · have large : 128 ≤ count.toNat := by
      rw [UInt8.lt_iff_toNat_lt] at repeats
      exact Nat.not_lt.mp repeats
    have negative : (count.toNat : Int) - 256 < 0 := by omega
    have length : -((count.toNat : Int) - 256) = (256 - count.toNat : Nat) := by omega
    simp only [if_neg repeats, if_pos negative, length]
    rw [signed_eq_ok (by omega) (by omega), Outcome.ok_bind, size_word (by omega), Outcome.ok_bind]
    by_cases enough : 256 - count.toNat ≤ following.length
    · have full : ¬ (following.take (256 - count.toNat)).length < 256 - count.toNat := by
        rw [List.length_take]
        omega
      rw [if_pos enough, cut_eq_ok enough, if_neg full]
      rfl
    · have missing : (following.take (256 - count.toNat)).length < 256 - count.toNat := by
        rw [List.length_take]
        omega
      rw [if_neg enough, if_pos missing]
      rfl

/-- A packet takes at least its count byte. -/
theorem length_takePacket_le {count : UInt8} {following rest : Bytes} {packet : Packet}
    (taken : takePacket count following = .ok (packet, rest)) :
    rest.length ≤ following.length := by
  rw [takePacket_eq_ofOutcome] at taken
  cases plain : RunLength.takePacket count following with
  | error fault =>
    rw [plain] at taken
    cases taken
  | ok pair =>
    rw [plain] at taken
    cases taken
    exact RunLength.length_takePacket_le plain

/-- Expands packet after packet, in steps that are checked. -/
def unpackOnto (expanded : Bytes) (room : Nat) : Bytes → Checked Bytes
  | [] => .ok expanded.reverse
  | count :: following =>
    match _taken : takePacket count following with
    | .error stop => .error stop
    | .ok (packet, rest) =>
      let values := packet.expand
      if room < values.length then .error (.fault (.invalid .runLengthExcess))
      else unpackOnto (values.reverse ++ expanded) (room - values.length) rest
termination_by bytes => bytes.length
decreasing_by
  have shorter := length_takePacket_le _taken
  simp only [List.length_cons]
  omega

/-- The block of a run-length form, in steps that are checked. -/
def decompress (limit : Nat) (compressed : Bytes) : Checked Bytes := do
  let prepared ← unpackOnto [] limit compressed
  restore prepared

/-- Expanding takes no step without a result. The induction follows the packets. -/
theorem unpackOnto_eq_ofOutcome (expanded : Bytes) (room : Nat) (bytes : Bytes) :
    unpackOnto expanded room bytes = ofOutcome (RunLength.unpackOnto expanded room bytes) := by
  fun_induction RunLength.unpackOnto expanded room bytes with
  | case1 =>
    rw [unpackOnto]
    rfl
  | case2 expanded room count following fault failed =>
    have same := takePacket_eq_ofOutcome count following
    rw [failed] at same
    rw [unpackOnto, same]
    rfl
  | case3 expanded room count following packet rest taken values excess =>
    have same := takePacket_eq_ofOutcome count following
    rw [taken] at same
    rw [unpackOnto, same]
    exact if_pos excess
  | case4 expanded room count following packet rest taken values enough inductionHypothesis =>
    have same := takePacket_eq_ofOutcome count following
    rw [taken] at same
    rw [unpackOnto, same]
    exact (if_neg enough).trans inductionHypothesis

/-- A run-length form is expanded and undone without a step that has no result. -/
theorem decompress_eq_ofOutcome (limit : Nat) (compressed : Bytes) :
    decompress limit compressed = ofOutcome (RunLength.decompress limit compressed) := by
  refine bind_eq_ofOutcome (unpackOnto_eq_ofOutcome [] limit compressed) fun prepared _ => ?_
  exact restore_eq_ok prepared

end RunLength

section Planes

open PixelBlocks.Planes

/-- The number whose bytes lie at one index of each plane, fetched from places that are
checked. -/
def join (table : Array UInt8) (count samples index : Nat) : Checked UInt32 :=
  (List.range count).foldlM
    (fun number plane => do
      let place ← size (plane * samples + index : Nat)
      let byte ← fetch table place
      return (number <<< 8) ||| byte.toUInt32) 0

/-- The sample bytes of one segment, in steps that are checked. -/
def decodeSegment (segment : Segment) (planes : Bytes) : Checked Bytes := do
  let table := planes.toArray
  let count := planeCount segment.type
  let steps ← (List.range segment.samples).mapM fun index => do
    let difference ← join table count segment.samples index
    return stepOf segment.type difference
  return (sums 0 steps).flatMap fun bits => littleEndian segment.type.byteSize bits.toNat

/-- The sample bytes of all segments, in steps that are checked. -/
def decode : List Segment → Bytes → Checked Bytes
  | [], [] => .ok []
  | [], _ :: _ => .error (.fault (.invalid .planesExcess))
  | segment :: others, planes => do
    let length ← size (segment.samples * planeCount segment.type : Nat)
    if planes.length < length then .error (.fault (.invalid .planesMissing))
    else
      let (front, rest) ← cut length planes
      let samples ← decodeSegment segment front
      let later ← decode others rest
      return samples ++ later

/-- Steps that all have results have a result in a row. -/
theorem foldlM_eq_ok {State Input : Type} {step : State → Input → State}
    {checked : State → Input → Checked State} {inputs : List Input}
    (each : ∀ input ∈ inputs, ∀ state, checked state input = .ok (step state input))
    (state : State) : inputs.foldlM checked state = .ok (inputs.foldl step state) := by
  induction inputs generalizing state with
  | nil => rfl
  | cons input rest inductionHypothesis =>
    obtain ⟨here, later⟩ := List.forall_mem_cons.mp each
    rw [List.foldlM_cons, here, Outcome.ok_bind, List.foldl_cons]
    exact inductionHypothesis later _

/-- The bytes of a sample lie in the planes. -/
theorem join_eq_ok {table : Array UInt8} {count samples index : Nat}
    (filled : table.size = count * samples) (inside : index < samples)
    (word : table.size < Size.bound) :
    join table count samples index = .ok (Planes.join table count samples index) := by
  refine foldlM_eq_ok (fun plane member number => ?_) 0
  have place : plane * samples + index < table.size :=
    filled ▸ Rows.place_lt (List.mem_range.mp member) inside
  rw [size_natCast (Nat.lt_trans place word), Outcome.ok_bind, fetch_eq_ok place]
  rfl

/-- A segment is read from planes of its size without leaving them. -/
theorem decodeSegment_eq_ok {segment : Segment} {planes : Bytes}
    (filled : planes.length = segment.samples * planeCount segment.type)
    (word : planes.length < Size.bound) :
    decodeSegment segment planes = .ok (Planes.decodeSegment segment planes) := by
  have sized : planes.toArray.size = planeCount segment.type * segment.samples := by
    rw [List.size_toArray, filled, Nat.mul_comm]
  have steps : ((List.range segment.samples).mapM fun index => do
      let difference ← join planes.toArray (planeCount segment.type) segment.samples index
      return stepOf segment.type difference) =
        .ok ((List.range segment.samples).map fun index => stepOf segment.type
          (Planes.join planes.toArray (planeCount segment.type) segment.samples index)) := by
    refine Outcome.mapM_eq_ok_map fun index member => ?_
    rw [join_eq_ok sized (List.mem_range.mp member) (by rwa [List.size_toArray])]
    rfl
  rw [decodeSegment, steps]
  rfl

/-- Planes are read without leaving them, as long as the counts of samples are sizes. -/
theorem decode_eq_ofOutcome {segments : List Segment} (word : rawSize segments < Size.bound)
    (planes : Bytes) : decode segments planes = ofOutcome (Planes.decode segments planes) := by
  induction segments generalizing planes with
  | nil => cases planes <;> rfl
  | cons segment others inductionHypothesis =>
    have narrow : planeCount segment.type ≤ segment.type.byteSize := by
      cases segment.type <;> decide
    have part := Nat.mul_le_mul_left segment.samples narrow
    rw [rawSize] at word
    rw [decode, Planes.decode, size_natCast (by omega), Outcome.ok_bind]
    have short : planes.length < segment.samples * planeCount segment.type ↔
        (planes.take (segment.samples * planeCount segment.type)).length <
          segment.samples * planeCount segment.type := by
      rw [List.length_take]
      omega
    rw [if_congr short rfl rfl]
    refine guard_eq_ofOutcome fun enough => ?_
    have full : (planes.take (segment.samples * planeCount segment.type)).length =
        segment.samples * planeCount segment.type := by
      rw [List.length_take] at enough ⊢
      omega
    rw [cut_eq_ok (by omega), Outcome.ok_bind]
    dsimp only
    rw [decodeSegment_eq_ok full (by omega), Outcome.ok_bind]
    exact bind_eq_ofOutcome (inductionHypothesis (by omega) _) fun _ _ => rfl

end Planes

section Chunk

/-- Decompresses a chunk, in steps that are checked: the split behind the dictionary and the
places of samples. -/
def decodeChunk (coders : Coders) (chunk : Bytes) (expected : Nat) : Checked Bytes := do
  let (header, body) ← ofOutcome (ChunkHeader.read chunk)
  if header.uncompressed.toNat ≠ expected then
    .error (.fault (.invalid (.chunkContent header.uncompressed.toNat expected)))
  else
    let declared ← ofOutcome header.chunkSize
    if declared ≠ chunk.length then
      .error (.fault (.invalid (.chunkLength chunk.length declared)))
    else
      let (dictionary, payload) ← cut header.dictionary body
      match Chunk.unpackFrame coders dictionary payload expected with
      | none => .error (.fault (.invalid .zstdFrame))
      | some prepared =>
        if prepared.length ≠ expected then
          .error (.fault (.invalid (.chunkDecodedLength prepared.length expected)))
        else restoreSamples header.parameters.typeSize prepared

/-- Whatever the bytes of a chunk are, it is decoded or refused without a step that has no
result. -/
theorem decodeChunk_eq_ofOutcome (coders : Coders) (chunk : Bytes) (expected : Nat) :
    decodeChunk coders chunk expected = ofOutcome (Chunk.decode coders chunk expected) := by
  refine bind_eq_ofOutcome rfl ?_
  rintro ⟨header, body⟩ found
  refine guard_eq_ofOutcome fun _ => ?_
  refine bind_eq_ofOutcome rfl fun declared sized => ?_
  refine guard_eq_ofOutcome fun same => ?_
  -- the header was compared with all bytes, so its dictionary lies within them
  have enough : header.dictionary ≤ body.length := by
    have whole := not_not.mp same
    rw [ChunkHeader.eq_of_chunkSize sized, (ChunkHeader.eq_layout_append_of_read found).1,
      List.length_append, ChunkHeader.length_layout] at whole
    omega
  rw [cut_eq_ok enough, Outcome.ok_bind]
  dsimp only
  cases Chunk.unpackFrame coders (body.take header.dictionary) (body.drop header.dictionary)
      expected with
  | none => rfl
  | some prepared =>
    exact guard_eq_ofOutcome fun _ => restoreSamples_eq_ok header.parameters.typeSize prepared

end Chunk

end PixelBlocks.Checked

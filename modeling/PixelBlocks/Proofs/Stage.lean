import PixelBlocks.Proofs.Chunk.RoundTrip
import PixelBlocks.Stage

/-!
# Stages write all or nothing

A stage computes its result apart from the buffer of the caller and writes it at once. So
the buffer is left alone whenever the stage fails, and behind the bytes that are written it
is left alone whenever the stage succeeds. The room that a caller must provide is the size
of the chunk, whatever the buffer holds.
-/

namespace PixelBlocks.Stage

section Buffers

variable {bytes buffer : Bytes}

/-- Writing within a buffer keeps its size. -/
theorem length_fillStart (room : bytes.length ≤ buffer.length) :
    (fillStart bytes buffer).length = buffer.length := by
  simp only [fillStart, List.length_append, List.length_drop]
  omega

/-- The buffer starts with the bytes that were written. -/
@[simp] theorem take_fillStart (bytes buffer : Bytes) :
    (fillStart bytes buffer).take bytes.length = bytes :=
  List.take_left' rfl

/-- Behind them it is as it was. -/
@[simp] theorem drop_fillStart (bytes buffer : Bytes) :
    (fillStart bytes buffer).drop bytes.length = buffer.drop bytes.length :=
  List.drop_left' rfl

/-- Bytes of the size of the buffer replace it. -/
theorem fillStart_eq (whole : bytes.length = buffer.length) : fillStart bytes buffer = bytes := by
  rw [fillStart, whole, List.drop_length, List.append_nil]

end Buffers

section Chunks

variable {coders : Coders} {packed chunk : Bytes} {level : UInt8} {room : Nat}

/-- The parameters of a stage are acceptable exactly if its level is. -/
theorem validate_eq_ok_iff :
    (ChunkParameters.shuffle typeSize level).validate = .ok () ↔ 1 ≤ level ∧ level ≤ 9 := by
  rw [ChunkParameters.validate_eq_ok_iff]
  simp [ChunkParameters.shuffle, typeSize]

/-- Stages use no dictionary. -/
theorem preprocessing_ne_dictionary :
    (ChunkParameters.shuffle typeSize level).preprocessing ≠ .dictionary := nofun

/-- The chunk of a stage has the shape of one. -/
theorem exists_written (frames : coders.FrameLaws)
    (encoded : Chunk.encode coders (.shuffle typeSize level) packed = .ok chunk) :
    ∃ dictionary payload,
      Chunk.Written coders (.shuffle typeSize level) packed chunk dictionary payload :=
  Chunk.exists_written frames (fun asked => absurd asked preprocessing_ne_dictionary) encoded

/-- Every packed buffer has a chunk at an acceptable level, if its frame is not too large for
the header. -/
theorem exists_encode (total : coders.FrameBounds) (acceptable : 1 ≤ level ∧ level ≤ 9)
    (fits : ∀ dictionary payload,
      Chunk.stored coders (.shuffle typeSize level) packed = some (dictionary, payload) →
        payload.length < 0x100000000) :
    ∃ chunk, Chunk.encode coders (.shuffle typeSize level) packed = .ok chunk := by
  apply Chunk.exists_encode_of_stored total
    (fun asked => absurd asked preprocessing_ne_dictionary) (validate_eq_ok_iff.mpr acceptable)
  intro dictionary payload kept
  refine ⟨?_, fits dictionary payload kept⟩
  rw [Chunk.dictionary_eq_nil preprocessing_ne_dictionary kept]
  decide

/-- The chunk is used exactly if there is room for it. -/
theorem chunkFor_eq_ok_iff (frames : coders.FrameLaws) :
    chunkFor coders packed room level = .ok chunk ↔
      Chunk.encode coders (.shuffle typeSize level) packed = .ok chunk ∧ chunk.length ≤ room := by
  unfold chunkFor
  split
  · next cause failed => simp [failed]
  · next made encoded =>
    obtain ⟨dictionary, payload, written⟩ := exists_written frames encoded
    have long := written.lt_length
    have filled : made ≠ [] := List.ne_nil_of_length_pos (by omega)
    rw [Outcome.guard_eq_ok_iff, encoded, List.isEmpty_iff]
    simp only [Except.ok.injEq]
    constructor
    · rintro ⟨kept, rfl⟩
      exact ⟨rfl, Nat.le_of_not_lt fun short => kept (.inr short)⟩
    · rintro ⟨rfl, enough⟩
      exact ⟨fun refused => refused.elim filled (Nat.not_lt.mpr enough), rfl⟩

/-- Without a chunk, or without room for it, the stage has failed. -/
theorem exists_failed {fault : StageFault}
    (refused : chunkFor coders packed room level = .error fault) :
    ∃ cause, fault = .failed cause := by
  unfold chunkFor at refused
  split at refused
  · exact ⟨_, (Except.error.inj refused).symm⟩
  · split at refused
    · exact ⟨_, (Except.error.inj refused).symm⟩
    · cases refused

end Chunks

section Stages

variable {coders : Coders} {defaults : Defaults} {packed buffer : Bytes} {level : Option UInt8}

/-- A chunk is written to the start of the buffer exactly if there is room for it. -/
theorem apply_eq_ok_iff (frames : coders.FrameLaws) {count : Nat} {after : Bytes} :
    apply coders defaults packed buffer level = (.ok count, after) ↔
      ∃ chunk, Chunk.encode coders (.shuffle typeSize (level.getD defaults.zstd)) packed =
          .ok chunk ∧ chunk.length ≤ buffer.length ∧ count = chunk.length ∧
        after = fillStart chunk buffer := by
  unfold apply
  split
  · next fault refused =>
    constructor
    · intro same
      cases same
    · rintro ⟨chunk, encoded, room, -⟩
      rw [(chunkFor_eq_ok_iff frames).mpr ⟨encoded, room⟩] at refused
      cases refused
  · next made kept =>
    obtain ⟨encoded, room⟩ := (chunkFor_eq_ok_iff frames).mp kept
    constructor
    · intro same
      cases same
      exact ⟨made, encoded, room, rfl, rfl⟩
    · rintro ⟨chunk, again, -, rfl, rfl⟩
      cases encoded.symm.trans again
      rfl

/-- A stage that fails says so and leaves the buffer alone. -/
theorem exists_cause {fault : StageFault} {after : Bytes}
    (refused : apply coders defaults packed buffer level = (.error fault, after)) :
    (∃ cause, fault = .failed cause) ∧ after = buffer := by
  unfold apply at refused
  split at refused
  · next found =>
    cases refused
    exact ⟨exists_failed found, rfl⟩
  · cases refused

/-- Undoing a stage fills the buffer, or fails and leaves it alone. -/
theorem undo_cases (coders : Coders) (compressed destination : Bytes) :
    (∃ bytes, Chunk.decode coders compressed destination.length = .ok bytes ∧
      bytes.length = destination.length ∧
      undo coders compressed destination = (.ok destination.length, bytes)) ∨
    ∃ cause, undo coders compressed destination = (.error (.corrupt cause), destination) := by
  cases decoded : Chunk.decode coders compressed destination.length with
  | error cause =>
    refine .inr ⟨cause, ?_⟩
    simp only [undo, decoded]
  | ok bytes =>
    have whole := Chunk.length_decode decoded
    refine .inl ⟨bytes, rfl, whole, ?_⟩
    simp only [undo, decoded]
    rw [fillStart_eq whole, whole]

/-- What a stage wrote is undone in a buffer of the size of the packed one. -/
theorem undo_eq (frames : coders.FrameLaws) (word : packed.length < Size.bound) {chunk : Bytes}
    {level : UInt8} (encoded : Chunk.encode coders (.shuffle typeSize level) packed = .ok chunk)
    {destination : Bytes} (sized : destination.length = packed.length) :
    undo coders chunk destination = (.ok packed.length, packed) := by
  obtain ⟨dictionary, payload, written⟩ := exists_written frames encoded
  have decoded := written.decode_eq word
  rw [undo, sized, decoded]
  simp only [ChunkParameters.shuffle, Chunk.settled]
  rw [fillStart_eq sized.symm]

/-- No level, or one of the levels that chunks have. -/
def Acceptable (level : Option UInt8) : Prop :=
  ∀ asked ∈ level, 1 ≤ asked ∧ asked ≤ 9

/-- A level is acceptable exactly if the level in effect is one that chunks have. -/
theorem acceptable_iff (reachable : defaults.Reachable) :
    Acceptable level ↔ 1 ≤ level.getD defaults.zstd ∧ level.getD defaults.zstd ≤ 9 := by
  cases level with
  | none => simp [Acceptable, reachable.valid.zstd]
  | some asked => simp [Acceptable]

end Stages

/-- What a caller relies on who compresses a packed buffer into a buffer. -/
structure Exact (coders : Coders) (defaults : Defaults) (packed buffer : Bytes)
    (level : Option UInt8) : Prop where
  /-- A stage that succeeds has written a chunk of the packed buffer and nothing else, and the
  chunk is undone in every buffer of the right size. -/
  written : ∀ count after, apply coders defaults packed buffer level = (.ok count, after) →
    ∃ chunk, Chunk.encode coders (.shuffle typeSize (level.getD defaults.zstd)) packed =
        .ok chunk ∧
      count = chunk.length ∧ after.length = buffer.length ∧ after.take count = chunk ∧
      after.drop count = buffer.drop count ∧
      ∀ destination : Bytes, destination.length = packed.length →
        undo coders (after.take count) destination = (.ok packed.length, packed)
  /-- A stage that fails has written nothing. -/
  failed : ∀ fault after, apply coders defaults packed buffer level = (.error fault, after) →
    (∃ cause, fault = .failed cause) ∧ after = buffer
  /-- With an acceptable level there is a chunk, and the stage succeeds exactly if the buffer
  has room for it. -/
  room : Acceptable level →
    ∃ chunk, Chunk.encode coders (.shuffle typeSize (level.getD defaults.zstd)) packed =
        .ok chunk ∧
      ((∃ count after, apply coders defaults packed buffer level = (.ok count, after)) ↔
        chunk.length ≤ buffer.length)
  /-- The bound for chunks is room enough. -/
  ample : Acceptable level → Chunk.bound coders packed.length ≤ buffer.length →
    ∃ count after, apply coders defaults packed buffer level = (.ok count, after)
  /-- With any other level the stage fails. -/
  refused : ¬ Acceptable level →
    ∃ cause, apply coders defaults packed buffer level = (.error (.failed cause), buffer)

/-- Stages are exact and atomic, whatever is packed, whatever the buffer holds, and whatever
level is asked for. Undoing arbitrary bytes fills the destination or leaves it alone. -/
theorem apply_undo_exact {coders : Coders} (frames : coders.FrameLaws)
    (total : coders.FrameBounds) {defaults : Defaults} (reachable : defaults.Reachable)
    {packed : Bytes} (word : packed.length < Size.bound) (buffer : Bytes) (level : Option UInt8)
    (fits : ∀ dictionary payload,
      Chunk.stored coders (.shuffle typeSize (level.getD defaults.zstd)) packed =
        some (dictionary, payload) → payload.length < 0x100000000) :
    Exact coders defaults packed buffer level ∧
    ∀ compressed destination,
      (∃ bytes, Chunk.decode coders compressed destination.length = .ok bytes ∧
        bytes.length = destination.length ∧
        undo coders compressed destination = (.ok destination.length, bytes)) ∨
      ∃ cause, undo coders compressed destination = (.error (.corrupt cause), destination) := by
  refine ⟨?_, undo_cases coders⟩
  have succeeds : ∀ chunk,
      Chunk.encode coders (.shuffle typeSize (level.getD defaults.zstd)) packed = .ok chunk →
      ((∃ count after, apply coders defaults packed buffer level = (.ok count, after)) ↔
        chunk.length ≤ buffer.length) := by
    intro chunk encoded
    constructor
    · rintro ⟨count, after, applied⟩
      obtain ⟨same, again, room, -⟩ := (apply_eq_ok_iff frames).mp applied
      cases encoded.symm.trans again
      exact room
    · intro room
      exact ⟨_, _, (apply_eq_ok_iff frames).mpr ⟨chunk, encoded, room, rfl, rfl⟩⟩
  constructor
  case written =>
    intro count after applied
    obtain ⟨chunk, encoded, room, rfl, rfl⟩ := (apply_eq_ok_iff frames).mp applied
    refine ⟨chunk, encoded, rfl, length_fillStart room, take_fillStart _ _, drop_fillStart _ _, ?_⟩
    intro destination sized
    rw [take_fillStart]
    exact undo_eq frames word encoded sized
  case failed => exact fun fault after => exists_cause
  case room =>
    intro acceptable
    obtain ⟨chunk, encoded⟩ := exists_encode total ((acceptable_iff reachable).mp acceptable) fits
    exact ⟨chunk, encoded, succeeds chunk encoded⟩
  case ample =>
    intro acceptable ample
    obtain ⟨chunk, encoded⟩ := exists_encode total ((acceptable_iff reachable).mp acceptable) fits
    obtain ⟨dictionary, payload, shape⟩ := exists_written frames encoded
    exact (succeeds chunk encoded).mpr (Nat.le_trans shape.length_le ample)
  case refused =>
    intro other
    rcases applied : apply coders defaults packed buffer level with ⟨fault | count, after⟩
    · obtain ⟨⟨cause, rfl⟩, rfl⟩ := exists_cause applied
      exact ⟨cause, rfl⟩
    · obtain ⟨chunk, encoded, -⟩ := (apply_eq_ok_iff frames).mp applied
      obtain ⟨dictionary, payload, shape⟩ := exists_written frames encoded
      exact absurd ((acceptable_iff reachable).mpr (validate_eq_ok_iff.mp shape.valid)) other

/-- Two halves, which are packed. -/
def packedBytes : Bytes := [0, 60, 1, 60]

/-- The frame of these halves, shuffled. -/
def packedRecording : Coders.Recording where
  streams := .empty
  frames :=
    { entries := [([0, 1, 60, 60], [40, 181, 47, 253, 32, 4, 33, 0, 0, 0, 1, 60, 60])]
      distinct := by decide
      unmarked := by decide }
  bounded := by decide

/-- Two halves are compressed into a buffer that has room for four bytes more than their
chunk. -/
theorem apply_undo_exact_halves :
    Exact packedRecording.coders .initial packedBytes (List.replicate 45 7) none ∧
    ∀ compressed destination,
      (∃ bytes, Chunk.decode packedRecording.coders compressed destination.length = .ok bytes ∧
        bytes.length = destination.length ∧
        undo packedRecording.coders compressed destination = (.ok destination.length, bytes)) ∨
      ∃ cause, undo packedRecording.coders compressed destination =
        (.error (.corrupt cause), destination) := by
  have laws := packedRecording.lawful
  have kept : Chunk.stored packedRecording.coders (.shuffle typeSize 5) packedBytes =
      some ([], [40, 181, 47, 253, 32, 4, 33, 0, 0, 0, 1, 60, 60]) := rfl
  refine apply_undo_exact laws.toFrameLaws laws.toFrameBounds .initial (by decide) _ none ?_
  intro dictionary payload stores
  cases kept.symm.trans stores
  decide

example : apply packedRecording.coders .initial packedBytes (List.replicate 40 7) none =
    (.error (.failed (.capacity (.chunkRoom 41 40))), List.replicate 40 7) := by decide

end PixelBlocks.Stage

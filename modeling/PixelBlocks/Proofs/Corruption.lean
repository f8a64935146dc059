import PixelBlocks.Deep
import PixelBlocks.Proofs.Outcome

/-!
# Corrupt bytes are refused as invalid

Stored bytes come from anywhere. Whatever they are, a decoder that needs nothing but
bytes either gives a result or finds them invalid; no other fault reaches its caller.
Each decoder is followed from its first step on, and a step may rely on the results of
the steps before it.
-/

namespace PixelBlocks

namespace Outcome

variable {Input Result : Type}

/-- A result, or the finding that the input is invalid. -/
def InvalidAtWorst (outcome : Outcome Result) : Prop :=
  ∀ fault, outcome = .error fault → ∃ cause, fault = .invalid cause

/-- A result is no fault. -/
@[simp] theorem invalidAtWorst_ok (result : Result) :
    InvalidAtWorst (.ok result : Outcome Result) := by
  intro fault failed
  cases failed

/-- A finding of invalid input is itself. -/
@[simp] theorem invalidAtWorst_invalid (cause : DataFault) :
    InvalidAtWorst (.error (.invalid cause) : Outcome Result) := by
  rintro fault ⟨⟩
  exact ⟨cause, rfl⟩

/-- Two operations find their input invalid at worst if the first does, and the second does
on every result of the first. -/
theorem InvalidAtWorst.bind {first : Outcome Input} {next : Input → Outcome Result}
    (start : InvalidAtWorst first)
    (follow : ∀ result, first = .ok result → InvalidAtWorst (next result)) :
    InvalidAtWorst (first >>= next) := by
  cases first with
  | ok result => exact follow result rfl
  | error fault =>
    obtain ⟨cause, rfl⟩ := start fault rfl
    exact invalidAtWorst_invalid cause

/-- The operations of a list find their inputs invalid at worst if each does. -/
theorem InvalidAtWorst.mapM {task : Input → Outcome Result} {inputs : List Input}
    (each : ∀ input ∈ inputs, InvalidAtWorst (task input)) :
    InvalidAtWorst (inputs.mapM task) := by
  induction inputs with
  | nil => exact invalidAtWorst_ok []
  | cons input rest inductionHypothesis =>
    obtain ⟨here, later⟩ := List.forall_mem_cons.mp each
    rw [List.mapM_cons]
    exact here.bind fun result _ => (inductionHypothesis later).bind fun _ _ =>
      invalidAtWorst_ok _

/-- A guard that refuses invalid input leaves the operation behind it. -/
theorem InvalidAtWorst.guard {condition : Prop} [Decidable condition] {cause : DataFault}
    {next : Outcome Result} (rest : ¬ condition → InvalidAtWorst next) :
    InvalidAtWorst (if condition then .error (.invalid cause) else next) := by
  split
  · exact invalidAtWorst_invalid cause
  · next passed => exact rest passed

/-- There is a result, or a cause why the input is invalid. -/
theorem InvalidAtWorst.cases {outcome : Outcome Result} (worst : InvalidAtWorst outcome) :
    (∃ result, outcome = .ok result) ∨ ∃ cause, outcome = .error (.invalid cause) := by
  cases outcome with
  | ok result => exact .inl ⟨result, rfl⟩
  | error fault =>
    obtain ⟨cause, rfl⟩ := worst fault rfl
    exact .inr ⟨cause, rfl⟩

/-- Bytes that begin others or go on behind them are invalid, if they are read only where they
are equal to those. -/
theorem InvalidAtWorst.of_comparable {outcome : Outcome Result} {bytes other : Bytes}
    (worst : InvalidAtWorst outcome)
    (equal : ∀ result, outcome = .ok result →
      (other <+: bytes → other = bytes) ∧ (bytes <+: other → bytes = other))
    (inside : other <+: bytes ∨ bytes <+: other) (different : other ≠ bytes) :
    ∃ cause, outcome = .error (.invalid cause) := by
  rcases worst.cases with ⟨result, read⟩ | failed
  · obtain ⟨begins, ends⟩ := equal result read
    rcases inside with shorter | longer
    · exact absurd (begins shorter) different
    · exact absurd (ends longer).symm different
  · exact failed

/-- Stored bytes of an expected length, or else what they are a form of, if that has this
length. -/
def exactly (stored : Bytes) (expected : Nat) (form : Outcome Bytes) (cause : DataFault) :
    Outcome Bytes :=
  if stored.length = expected then .ok stored
  else do
    let raw ← form
    if raw.length = expected then .ok raw else .error (.invalid cause)

/-- A form that is invalid at worst is so when its length is compared. -/
theorem InvalidAtWorst.exactly {stored : Bytes} {expected : Nat} {form : Outcome Bytes}
    (formed : InvalidAtWorst form) (cause : DataFault) :
    InvalidAtWorst (exactly stored expected form cause) := by
  unfold Outcome.exactly
  split
  · exact invalidAtWorst_ok stored
  · refine formed.bind fun raw _ => ?_
    split
    · exact invalidAtWorst_ok raw
    · exact invalidAtWorst_invalid cause

/-- What has exactly the expected length has it, whether it was stored or formed. -/
theorem length_of_exactly {stored raw : Bytes} {expected : Nat} {form : Outcome Bytes}
    {cause : DataFault} (found : exactly stored expected form cause = .ok raw) :
    raw.length = expected := by
  unfold exactly at found
  split at found
  · next whole =>
    cases found
    exact whole
  · obtain ⟨formed, -, checked⟩ := bind_eq_ok_iff.mp found
    split at checked
    · next whole =>
      cases checked
      exact whole
    · cases checked

end Outcome

open Outcome

namespace Scalar

/-- Missing bytes are invalid. -/
theorem invalidAtWorst_takeBytes (count : Nat) (bytes : Bytes) :
    InvalidAtWorst (takeBytes count bytes) :=
  .guard fun _ => invalidAtWorst_ok _

/-- A number is read unless bytes are missing. -/
theorem invalidAtWorst_read (kind : Scalar) (bytes : Bytes) :
    InvalidAtWorst (kind.read bytes) :=
  (invalidAtWorst_takeBytes _ _).bind fun _ _ => invalidAtWorst_ok _

/-- So are several numbers, one after another. -/
theorem invalidAtWorst_readSlice (kind : Scalar) (count : Nat) (bytes : Bytes) :
    InvalidAtWorst (kind.readSlice count bytes) := by
  induction count generalizing bytes with
  | zero => exact invalidAtWorst_ok _
  | succ count inductionHypothesis =>
    apply (kind.invalidAtWorst_read bytes).bind
    intro _ _
    apply (inductionHypothesis _).bind
    intro _ _
    exact invalidAtWorst_ok _

/-- So are counted numbers, unless their size is none. -/
theorem invalidAtWorst_readVector (kind : Scalar) (count : Nat) (bytes : Bytes) :
    InvalidAtWorst (kind.readVector count bytes) := by
  unfold readVector
  split
  · exact invalidAtWorst_invalid _
  · exact .guard fun _ => kind.invalidAtWorst_readSlice count bytes

end Scalar

/-- An unknown code is invalid. -/
theorem Preprocessing.invalidAtWorst_ofCode (code : UInt8) : InvalidAtWorst (ofCode code) := by
  unfold ofCode
  split_ifs <;> simp

namespace ChunkHeader

/-- A requirement that is not met makes the header invalid. -/
theorem invalidAtWorst_require (condition : Bool) (cause : DataFault) :
    InvalidAtWorst (require condition cause) := by
  cases condition
  · exact invalidAtWorst_invalid cause
  · exact invalidAtWorst_ok ()

/-- Bytes either start with a header or are invalid, also where the header has parameters
that no writer accepts. -/
theorem invalidAtWorst_read (bytes : Bytes) : InvalidAtWorst (read bytes) := by
  unfold read
  refine (invalidAtWorst_require _ _).bind fun _ _ => ?_
  refine (Scalar.invalidAtWorst_takeBytes _ _).bind fun _ _ => ?_
  refine (invalidAtWorst_require _ _).bind fun _ _ => ?_
  refine (Scalar.invalidAtWorst_read _ _).bind fun _ _ => ?_
  refine (invalidAtWorst_require _ _).bind fun _ _ => ?_
  refine (Scalar.invalidAtWorst_read _ _).bind fun _ _ => ?_
  refine (invalidAtWorst_require _ _).bind fun _ _ => ?_
  refine (Scalar.invalidAtWorst_read _ _).bind fun _ _ => ?_
  refine (Preprocessing.invalidAtWorst_ofCode _).bind fun _ _ => ?_
  refine (Scalar.invalidAtWorst_read _ _).bind fun _ _ => ?_
  refine (Scalar.invalidAtWorst_read _ _).bind fun _ _ => ?_
  refine (Scalar.invalidAtWorst_takeBytes _ _).bind fun _ _ => ?_
  refine (invalidAtWorst_require _ _).bind fun _ _ => ?_
  refine (Scalar.invalidAtWorst_read _ _).bind fun _ _ => ?_
  refine (Scalar.invalidAtWorst_read _ _).bind fun _ _ => ?_
  refine (Scalar.invalidAtWorst_read _ _).bind fun _ _ => ?_
  refine (invalidAtWorst_require _ _).bind fun _ _ => ?_
  split <;> simp

/-- Sizes that add up to more than any size are invalid. -/
theorem invalidAtWorst_chunkSize (header : ChunkHeader) :
    InvalidAtWorst header.chunkSize := by
  unfold chunkSize
  split <;> simp

end ChunkHeader

namespace Chunk

/-- A chunk is decoded or invalid, whatever its bytes and the frame in it are. -/
theorem invalidAtWorst_decode (coders : Coders) (chunk : Bytes) (expected : Nat) :
    InvalidAtWorst (decode coders chunk expected) := by
  refine (ChunkHeader.invalidAtWorst_read chunk).bind fun _ _ => ?_
  refine .guard fun _ => ?_
  refine (ChunkHeader.invalidAtWorst_chunkSize _).bind fun _ _ => ?_
  refine .guard fun _ => ?_
  dsimp only
  split
  · exact invalidAtWorst_invalid _
  · exact .guard fun _ => invalidAtWorst_ok _

end Chunk

namespace RunLength

/-- A packet that is cut off is invalid. -/
theorem invalidAtWorst_takePacket (count : UInt8) (following : Bytes) :
    InvalidAtWorst (takePacket count following) := by
  unfold takePacket
  split
  · cases following <;> simp
  · exact .guard fun _ => invalidAtWorst_ok _

/-- Packets that stand for more bytes than there is room for are invalid. The induction
follows the reading of packets. -/
theorem invalidAtWorst_unpackOnto (expanded : Bytes) (room : Nat) (bytes : Bytes) :
    InvalidAtWorst (unpackOnto expanded room bytes) := by
  fun_induction unpackOnto expanded room bytes with
  | case1 => exact invalidAtWorst_ok _
  | case2 expanded room count following fault failed =>
    obtain ⟨cause, rfl⟩ := invalidAtWorst_takePacket count following fault failed
    exact invalidAtWorst_invalid cause
  | case3 => exact invalidAtWorst_invalid _
  | case4 expanded room count following packet rest taken values enough inductionHypothesis =>
    exact inductionHypothesis

/-- A run-length form is expanded or invalid. -/
theorem invalidAtWorst_decompress (limit : Nat) (compressed : Bytes) :
    InvalidAtWorst (decompress limit compressed) :=
  (invalidAtWorst_unpackOnto _ _ _).bind fun _ _ => invalidAtWorst_ok _

end RunLength

namespace Planes

/-- Planes that are cut off or followed by other bytes are invalid. -/
theorem invalidAtWorst_decode (segments : List Segment) (planes : Bytes) :
    InvalidAtWorst (decode segments planes) := by
  induction segments generalizing planes with
  | nil => cases planes <;> simp [decode]
  | cons segment others inductionHypothesis =>
    rw [decode]
    exact .guard fun _ => (inductionHypothesis _).bind fun _ _ => invalidAtWorst_ok _

end Planes

namespace FlatCompressor

/-- A zlib stream is decoded or invalid. -/
theorem invalidAtWorst_decodeZip (coders : Coders) (stored : Bytes) (expected : Nat) :
    InvalidAtWorst (decodeZip coders stored expected) := by
  unfold decodeZip
  split <;> simp

end FlatCompressor

namespace Envelope

/-- A size that is negative or too large for its bytes is invalid, and so is a missing or
an excess chunk. -/
theorem invalidAtWorst_decodeChunks (count : Nat) (bytes : Bytes) :
    InvalidAtWorst (decodeChunks count bytes) := by
  induction count generalizing bytes with
  | zero => cases bytes <;> simp [decodeChunks]
  | succ count inductionHypothesis =>
    rw [decodeChunks]
    refine (Scalar.invalidAtWorst_read _ _).bind fun _ _ => ?_
    refine .guard fun _ => .guard fun _ => ?_
    exact (inductionHypothesis _).bind fun _ _ => invalidAtWorst_ok _

/-- An envelope is cut into chunks or invalid. -/
theorem invalidAtWorst_decode (envelope : Bytes) (count : Nat) :
    InvalidAtWorst (decode envelope count) :=
  (Scalar.invalidAtWorst_read _ _).bind fun _ _ =>
    .guard fun _ => invalidAtWorst_decodeChunks _ _

end Envelope

namespace Offsets

/-- A table that decreases, or starts below zero, is invalid. -/
theorem invalidAtWorst_total (offsets : List Int32) : InvalidAtWorst (total offsets) := by
  have walk : ∀ previous, InvalidAtWorst (totalFrom previous offsets) := by
    induction offsets with
    | nil => exact fun previous => invalidAtWorst_ok previous
    | cons offset rest inductionHypothesis =>
      intro previous
      exact .guard fun _ => inductionHypothesis offset
  exact (walk 0).bind fun _ _ => invalidAtWorst_ok _

/-- A table is read, or it is too short or invalid itself. -/
theorem invalidAtWorst_decode (count : Nat) (table : Bytes) :
    InvalidAtWorst (decode count table) := by
  apply (Scalar.int32.invalidAtWorst_readVector count table).bind
  intro _ _
  apply (invalidAtWorst_total _).bind
  intro _ _
  exact invalidAtWorst_ok _

end Offsets

end PixelBlocks

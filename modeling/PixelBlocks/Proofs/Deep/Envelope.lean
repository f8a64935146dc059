import PixelBlocks.Deep.Envelope
import PixelBlocks.Proofs.Scalar

/-!
# Envelopes hold as many chunks as were put in

An envelope is the version and then the chunks, each behind its size. It is written behind
whatever the output holds, and if a chunk is too large, the front of it stays there. A
reader that expects the right number of chunks gets them back. A reader that expects
another number fails: it finds bytes behind the last chunk, or none where a size should be.
-/

namespace PixelBlocks.Envelope

/-- Chunks after their sizes. -/
def encodeChunks : List Bytes → Outcome Bytes
  | [] => .ok []
  | chunk :: others => do
    let front ← Scalar.uint8.encodeSized chunk
    let rest ← encodeChunks others
    return front ++ rest

/-- The envelope of chunks. -/
def encode (chunks : List Bytes) : Outcome Bytes := do
  let body ← encodeChunks chunks
  return Scalar.int32.encode version ++ body

/-- Sized chunks are appended to whatever was written before, and as many as are not too large
stay behind it. -/
theorem appendChunks_cases (output : Bytes) (chunks : List Bytes) :
    (∃ body, encodeChunks chunks = .ok body ∧
      appendChunks output chunks = (.ok (), output ++ body)) ∨
    ∃ fault front, encodeChunks chunks = .error fault ∧
      appendChunks output chunks = (.error fault, output ++ front) := by
  induction chunks generalizing output with
  | nil => exact .inl ⟨[], rfl, by rw [appendChunks, List.append_nil]⟩
  | cons chunk others inductionHypothesis =>
    cases here : Scalar.uint8.encodeSized chunk with
    | error fault =>
      refine .inr ⟨fault, [], ?_, ?_⟩
      · rw [encodeChunks, here, Outcome.error_bind]
      · rw [appendChunks, here, List.append_nil]
    | ok sized =>
      rcases inductionHypothesis (output ++ sized) with
        ⟨body, later, appended⟩ | ⟨fault, front, later, appended⟩
      · refine .inl ⟨sized ++ body, ?_, ?_⟩
        · rw [encodeChunks, here, Outcome.ok_bind, later, Outcome.ok_bind]
          rfl
        · rw [appendChunks, here, ← List.append_assoc]
          exact appended
      · refine .inr ⟨fault, sized ++ front, ?_, ?_⟩
        · rw [encodeChunks, here, Outcome.ok_bind, later, Outcome.error_bind]
        · rw [appendChunks, here, ← List.append_assoc]
          exact appended

/-- An output to which an envelope was appended ends with the envelope. If there is none, the
output still begins with what was written before. -/
theorem append_cases (output : Bytes) (chunks : List Bytes) :
    (∃ envelope, encode chunks = .ok envelope ∧
      append output chunks = (.ok (), output ++ envelope)) ∨
    ∃ fault front, encode chunks = .error fault ∧
      append output chunks = (.error fault, output ++ front) := by
  rcases appendChunks_cases (output ++ Scalar.int32.encode version) chunks with
    ⟨body, encoded, appended⟩ | ⟨fault, front, failed, appended⟩
  · refine .inl ⟨Scalar.int32.encode version ++ body, ?_, ?_⟩
    · rw [encode, encoded, Outcome.ok_bind]
      rfl
    · rw [append, appended, List.append_assoc]
  · refine .inr ⟨fault, Scalar.int32.encode version ++ front, ?_, ?_⟩
    · rw [encode, failed, Outcome.error_bind]
    · rw [append, appended, List.append_assoc]

/-- A chunk behind its size. -/
def sized (chunk : Bytes) : Bytes :=
  Scalar.int32.encode (Int32.ofNat chunk.length) ++ chunk

/-- The bytes of chunks that are not too large. -/
def layout (chunks : List Bytes) : Bytes :=
  chunks.flatMap sized

/-- A chunk is stored behind its size unless it is too large. -/
theorem encodeSized_eq_ok_iff {chunk front : Bytes} :
    Scalar.uint8.encodeSized chunk = .ok front ↔
      chunk.length < 0x80000000 ∧ front = sized chunk := by
  by_cases large : 0x80000000 ≤ chunk.length
  · have failed : ¬ chunk.length < 0x80000000 := by omega
    simp [Scalar.encodeSized, large, failed]
  · have fits : chunk.length < 0x80000000 := by omega
    simp [Scalar.encodeSized, large, fits, Scalar.encodeAll_uint8, sized, eq_comm]

/-- Chunks are stored one after another unless one is too large. -/
theorem encodeChunks_eq_ok_iff {chunks : List Bytes} {body : Bytes} :
    encodeChunks chunks = .ok body ↔
      (∀ chunk ∈ chunks, chunk.length < 0x80000000) ∧ body = layout chunks := by
  induction chunks generalizing body with
  | nil => simp [encodeChunks, layout, eq_comm]
  | cons chunk others inductionHypothesis =>
    rw [encodeChunks]
    constructor
    · intro encoded
      obtain ⟨front, here, encoded⟩ := Outcome.bind_eq_ok_iff.mp encoded
      obtain ⟨rest, later, joined⟩ := Outcome.bind_eq_ok_iff.mp encoded
      obtain ⟨fits, rfl⟩ := encodeSized_eq_ok_iff.mp here
      obtain ⟨fit, rfl⟩ := inductionHypothesis.mp later
      cases joined
      exact ⟨List.forall_mem_cons.mpr ⟨fits, fit⟩, rfl⟩
    · rintro ⟨fits, rfl⟩
      obtain ⟨here, later⟩ := List.forall_mem_cons.mp fits
      rw [encodeSized_eq_ok_iff.mpr ⟨here, rfl⟩, Outcome.ok_bind,
        inductionHypothesis.mpr ⟨later, rfl⟩]
      rfl

/-- An envelope is its version and its chunks, none of which is too large. -/
theorem encode_eq_ok_iff {chunks : List Bytes} {envelope : Bytes} :
    encode chunks = .ok envelope ↔
      (∀ chunk ∈ chunks, chunk.length < 0x80000000) ∧
        envelope = Scalar.int32.encode version ++ layout chunks := by
  rw [encode]
  constructor
  · intro encoded
    obtain ⟨body, stored, joined⟩ := Outcome.bind_eq_ok_iff.mp encoded
    obtain ⟨fits, rfl⟩ := encodeChunks_eq_ok_iff.mp stored
    cases joined
    exact ⟨fits, rfl⟩
  · rintro ⟨fits, rfl⟩
    rw [encodeChunks_eq_ok_iff.mpr ⟨fits, rfl⟩]
    rfl

/-- The version is followed by the chunks. -/
theorem decode_layout (chunks : List Bytes) (count : Nat) :
    decode (Scalar.int32.encode version ++ layout chunks) count =
      decodeChunks count (layout chunks) := by
  rw [decode, Scalar.read_encode_append]
  rfl

/-- The first chunk is read, and the others are left. -/
theorem decodeChunks_cons {chunk : Bytes} (fits : chunk.length < 0x80000000)
    (others : List Bytes) (count : Nat) :
    decodeChunks (count + 1) (layout (chunk :: others)) =
      (do let rest ← decodeChunks count (layout others); return chunk :: rest) := by
  have length : (Int32.ofNat chunk.length).toInt = chunk.length :=
    Int32.toInt_ofNat_of_lt fits
  have nonnegative : ¬ (Int32.ofNat chunk.length).toInt < 0 := by omega
  have count_eq : (Int32.ofNat chunk.length).toInt.toNat = chunk.length := by omega
  have front : (chunk ++ layout others).take chunk.length = chunk := List.take_left' rfl
  have back : (chunk ++ layout others).drop chunk.length = layout others := List.drop_left' rfl
  have split : layout (chunk :: others) =
      Scalar.int32.encode (Int32.ofNat chunk.length) ++ (chunk ++ layout others) := by
    rw [layout, List.flatMap_cons, sized, List.append_assoc]
    rfl
  rw [decodeChunks, split, Scalar.read_encode_append]
  simp only [Outcome.ok_bind, nonnegative, if_false, count_eq, front, back, Nat.lt_irrefl]

/-- A reader of the right number of chunks gets them back. -/
theorem decodeChunks_layout {chunks : List Bytes}
    (fits : ∀ chunk ∈ chunks, chunk.length < 0x80000000) :
    decodeChunks chunks.length (layout chunks) = .ok chunks := by
  induction chunks with
  | nil => rfl
  | cons chunk others inductionHypothesis =>
    obtain ⟨here, later⟩ := List.forall_mem_cons.mp fits
    rw [List.length_cons, decodeChunks_cons here, inductionHypothesis later]
    rfl

/-- A first chunk that was read stands behind its size. -/
theorem exists_decodeChunks_succ {count : Nat} {bytes : Bytes} {chunks : List Bytes}
    (decoded : decodeChunks (count + 1) bytes = .ok chunks) :
    ∃ chunk others rest, chunks = chunk :: others ∧ chunk.length < 0x80000000 ∧
      bytes = sized chunk ++ rest ∧ decodeChunks count rest = .ok others := by
  obtain ⟨⟨size, behind⟩, found, decoded⟩ := Outcome.bind_eq_ok_iff.mp decoded
  have front := Scalar.read_eq_ok_iff.mp found
  obtain ⟨negative, decoded⟩ := Outcome.guard_eq_ok_iff.mp decoded
  obtain ⟨missing, decoded⟩ := Outcome.guard_eq_ok_iff.mp decoded
  obtain ⟨others, later, same⟩ := Outcome.bind_eq_ok_iff.mp decoded
  cases same
  have small := Int32.toInt_lt size
  have length : (behind.take (Int32.toInt size).toNat).length = (Int32.toInt size).toNat := by
    rw [List.length_take] at missing ⊢
    omega
  have word : Int32.ofNat (Int32.toInt size).toNat = size := by
    apply Int32.toInt_inj.mp
    rw [Int32.toInt_ofNat_of_lt (by omega)]
    omega
  refine ⟨_, others, _, rfl, by omega, ?_, later⟩
  rw [sized, length, word, List.append_assoc, List.take_append_drop, front]

/-- Bytes are read as sized chunks exactly if they are the layout of as many chunks. -/
theorem decodeChunks_eq_ok_iff {count : Nat} {bytes : Bytes} {chunks : List Bytes} :
    decodeChunks count bytes = .ok chunks ↔
      chunks.length = count ∧ (∀ chunk ∈ chunks, chunk.length < 0x80000000) ∧
        bytes = layout chunks := by
  constructor
  · intro decoded
    induction count generalizing bytes chunks with
    | zero =>
      cases bytes with
      | nil =>
        cases decoded
        exact ⟨rfl, by simp, rfl⟩
      | cons byte rest => cases decoded
    | succ count inductionHypothesis =>
      obtain ⟨chunk, others, rest, rfl, here, rfl, later⟩ := exists_decodeChunks_succ decoded
      obtain ⟨counted, fits, rfl⟩ := inductionHypothesis later
      exact ⟨congrArg (· + 1) counted, List.forall_mem_cons.mpr ⟨here, fits⟩, rfl⟩
  · rintro ⟨rfl, fits, rfl⟩
    exact decodeChunks_layout fits

/-- An envelope is read exactly if it is the version and the layout of as many chunks. -/
theorem decode_eq_ok_iff {envelope : Bytes} {count : Nat} {chunks : List Bytes} :
    decode envelope count = .ok chunks ↔
      chunks.length = count ∧ (∀ chunk ∈ chunks, chunk.length < 0x80000000) ∧
        envelope = Scalar.int32.encode version ++ layout chunks := by
  constructor
  · intro decoded
    obtain ⟨⟨found, body⟩, front, decoded⟩ := Outcome.bind_eq_ok_iff.mp decoded
    obtain ⟨same, decoded⟩ := Outcome.guard_eq_ok_iff.mp decoded
    obtain ⟨counted, fits, rfl⟩ := decodeChunks_eq_ok_iff.mp decoded
    rw [Scalar.read_eq_ok_iff.mp front, Decidable.not_not.mp same]
    exact ⟨counted, fits, rfl⟩
  · rintro ⟨rfl, fits, rfl⟩
    rw [decode_layout, decodeChunks_layout fits]

/-- A reader of another number of chunks fails. -/
theorem decodeChunks_other {chunks : List Bytes}
    (fits : ∀ chunk ∈ chunks, chunk.length < 0x80000000) {count : Nat}
    (other : count ≠ chunks.length) :
    ∃ cause, decodeChunks count (layout chunks) = .error (.invalid cause) := by
  induction chunks generalizing count with
  | nil =>
    cases count with
    | zero => exact absurd rfl other
    | succ count => exact ⟨.missingBytes, rfl⟩
  | cons chunk others inductionHypothesis =>
    obtain ⟨here, later⟩ := List.forall_mem_cons.mp fits
    cases count with
    | zero => exact ⟨.envelopeTrailing, rfl⟩
    | succ count =>
      have fewer : count ≠ others.length := fun same => other (congrArg (· + 1) same)
      obtain ⟨cause, failed⟩ := inductionHypothesis later fewer
      exact ⟨cause, by rw [decodeChunks_cons here, failed]; rfl⟩

/-- Bytes start with as many sized chunks in one way only. -/
theorem layout_append_inj {chunks others : List Bytes} (counted : chunks.length = others.length)
    (fits : ∀ chunk ∈ chunks, chunk.length < 0x80000000)
    (otherFits : ∀ other ∈ others, other.length < 0x80000000) {rest behind : Bytes}
    (same : layout chunks ++ rest = layout others ++ behind) : chunks = others ∧ rest = behind := by
  induction chunks generalizing others with
  | nil =>
    cases List.length_eq_zero_iff.mp counted.symm
    exact ⟨rfl, same⟩
  | cons chunk chunks inductionHypothesis =>
    cases others with
    | nil => cases counted
    | cons other others =>
      obtain ⟨small, smalls⟩ := List.forall_mem_cons.mp fits
      obtain ⟨otherSmall, otherSmalls⟩ := List.forall_mem_cons.mp otherFits
      simp only [layout, List.flatMap_cons, sized, List.append_assoc] at same
      -- both begin with a size, and it says where the first chunk ends
      have found := Scalar.read_encode_append .int32 (Int32.ofNat chunk.length)
        (chunk ++ (layout chunks ++ rest))
      rw [layout, same, Scalar.read_encode_append, Except.ok.injEq, Prod.mk.injEq] at found
      obtain ⟨sizes, behindSizes⟩ := found
      have length : other.length = chunk.length := by
        have numbers := congrArg Int32.toInt sizes
        rw [Int32.toInt_ofNat_of_lt otherSmall, Int32.toInt_ofNat_of_lt small] at numbers
        exact Int.ofNat_inj.mp numbers
      obtain ⟨rfl, later⟩ := List.append_inj behindSizes length
      obtain ⟨rfl, left⟩ := inductionHypothesis (Nat.succ.inj counted) smalls otherSmalls later.symm
      exact ⟨rfl, left⟩

/-- Of two byte strings that hold as many chunks none goes on where the other ends. -/
theorem eq_of_prefix {count : Nat} {bytes longer : Bytes} {chunks others : List Bytes}
    (decoded : decodeChunks count bytes = .ok chunks)
    (decodedLonger : decodeChunks count longer = .ok others) (inside : bytes <+: longer) :
    bytes = longer := by
  obtain ⟨counted, fits, rfl⟩ := decodeChunks_eq_ok_iff.mp decoded
  obtain ⟨otherCounted, otherFits, rfl⟩ := decodeChunks_eq_ok_iff.mp decodedLonger
  obtain ⟨rest, joined⟩ := inside
  rw [← List.append_nil (layout others)] at joined
  obtain ⟨rfl, -⟩ := layout_append_inj (counted.trans otherCounted.symm) fits otherFits joined
  rfl

end PixelBlocks.Envelope

import Mathlib.Algebra.GroupWithZero.Nat
import PixelBlocks.Proofs.Corruption
import PixelBlocks.Proofs.Deep.Envelope

/-!
# Envelopes are uniquely decodable

An envelope does not say how many chunks it holds, and yet it is read in one way only. Each
chunk stands behind its size, so whoever reads on finds the same chunks and comes to the end
of the bytes after the same number of them. A reader of fewer chunks finds bytes left over,
a reader of more finds none; and bytes that are cut or go on are no envelope of as many
chunks. What was read is written again as the same bytes.
-/

namespace PixelBlocks.Envelope

variable {chunks others : List Bytes} {envelope : Bytes} {count : Nat}

/-- Chunks with their sizes take four bytes more each. -/
theorem length_layout (chunks : List Bytes) :
    (layout chunks).length = 4 * chunks.length + (chunks.map List.length).sum := by
  induction chunks with
  | nil => rfl
  | cons chunk others inductionHypothesis =>
    have behind : (layout (chunk :: others)).length =
        4 + chunk.length + (layout others).length := by
      simp [layout, sized, Scalar.width, Nat.add_assoc]
    rw [behind, inductionHypothesis, List.length_cons, List.map_cons, List.sum_cons]
    omega

/-- The size of an envelope is known before it is written: its overhead and the sizes of its
chunks. -/
theorem length_encode (encoded : encode chunks = .ok envelope) :
    envelope.length = overhead chunks.length + (chunks.map List.length).sum := by
  obtain ⟨-, rfl⟩ := encode_eq_ok_iff.mp encoded
  have front : (Scalar.int32.encode version).length = 4 := Scalar.length_encode .int32 version
  rw [List.length_append, front, length_layout, overhead]
  omega

/-- An envelope is read exactly as the chunks that it was written from. -/
theorem decode_eq_ok_iff_encode :
    decode envelope count = .ok chunks ↔ chunks.length = count ∧ encode chunks = .ok envelope := by
  rw [decode_eq_ok_iff, encode_eq_ok_iff]

/-- Readers of different numbers of chunks cannot both succeed. -/
theorem count_eq_of_decode {other : Nat} (decoded : decode envelope count = .ok chunks)
    (decodedOther : decode envelope other = .ok others) : count = other := by
  obtain ⟨counted, fits, rfl⟩ := decode_eq_ok_iff.mp decoded
  by_contra different
  have more : other ≠ chunks.length := fun same => different (counted.symm.trans same.symm)
  obtain ⟨cause, failed⟩ := decodeChunks_other fits more
  rw [decode_layout, failed] at decodedOther
  cases decodedOther

/-- Of two envelopes of as many chunks none goes on where the other ends. -/
theorem eq_of_decode_append {longer : Bytes} (decoded : decode envelope count = .ok chunks)
    (decodedLonger : decode longer count = .ok others) (inside : envelope <+: longer) :
    envelope = longer := by
  obtain ⟨counted, fits, rfl⟩ := decode_eq_ok_iff.mp decoded
  obtain ⟨otherCounted, otherFits, rfl⟩ := decode_eq_ok_iff.mp decodedLonger
  rw [List.prefix_append_right_inj] at inside
  have same : layout chunks = layout others :=
    eq_of_prefix (decodeChunks_eq_ok_iff.mpr ⟨counted, fits, rfl⟩)
      (decodeChunks_eq_ok_iff.mpr ⟨otherCounted, otherFits, rfl⟩) inside
  rw [same]

/-- Bytes that begin an envelope or go on behind it are invalid, as long as the reader asks
for the same number of chunks. -/
theorem invalid_of_shorter {other : Bytes} (decoded : decode envelope count = .ok chunks)
    (inside : other <+: envelope ∨ envelope <+: other) (different : other ≠ envelope) :
    ∃ cause, decode other count = .error (.invalid cause) := by
  refine (invalidAtWorst_decode other count).of_comparable ?_ inside different
  intro found decodedOther
  exact ⟨eq_of_decode_append decodedOther decoded, eq_of_decode_append decoded decodedOther⟩

/-- Chunks that are not too large have an envelope of the announced size. It starts with four
zeroes, and a reader of as many chunks finds them in order. Whatever a reader finds is written
as the same envelope. At most one number of chunks can be read from any bytes, and then not
from other bytes that begin them or go on behind them. Each failure is one of the bytes. -/
theorem uniquely_decodable :
    (∀ chunks : List Bytes, (∀ chunk ∈ chunks, chunk.length < 2 ^ 31) →
      ∃ envelope, encode chunks = .ok envelope ∧
        envelope.length = overhead chunks.length + (chunks.map List.length).sum ∧
        envelope.take 4 = [0, 0, 0, 0] ∧ decode envelope chunks.length = .ok chunks) ∧
    (∀ (envelope : Bytes) (count : Nat) (chunks : List Bytes),
      decode envelope count = .ok chunks → encode chunks = .ok envelope) ∧
    (∀ (envelope : Bytes) (first second : Nat) (chunks others : List Bytes),
      decode envelope first = .ok chunks → decode envelope second = .ok others →
        first = second) ∧
    (∀ (envelope other : Bytes) (count : Nat) (chunks : List Bytes),
      decode envelope count = .ok chunks → (other <+: envelope ∨ envelope <+: other) →
        other ≠ envelope → ∃ cause, decode other count = .error (.invalid cause)) ∧
    (∀ (envelope : Bytes) (count : Nat) (fault : Fault),
      decode envelope count = .error fault → ∃ cause, fault = .invalid cause) := by
  refine ⟨?_, ?_, ?_, ?_, ?_⟩
  · intro chunks fits
    have encoded : encode chunks = .ok (Scalar.int32.encode version ++ layout chunks) :=
      encode_eq_ok_iff.mpr ⟨fits, rfl⟩
    refine ⟨_, encoded, length_encode encoded, rfl, ?_⟩
    exact decode_eq_ok_iff_encode.mpr ⟨rfl, encoded⟩
  · intro envelope count chunks decoded
    exact (decode_eq_ok_iff_encode.mp decoded).2
  · intro envelope first second chunks others decoded decodedOther
    exact count_eq_of_decode decoded decodedOther
  · intro envelope other count chunks decoded inside different
    exact invalid_of_shorter decoded inside different
  · intro envelope count fault failed
    exact invalidAtWorst_decode envelope count fault failed

/-- Three chunks, one of which is empty. -/
def threeChunks : List Bytes := [[7, 8], [], [0, 0, 0, 0]]

/-- Their envelope. -/
def threeEnvelope : Bytes :=
  [0, 0, 0, 0, 2, 0, 0, 0, 7, 8, 0, 0, 0, 0, 4, 0, 0, 0, 0, 0, 0, 0]

/-- The last chunk looks like the size of an empty one, and still the envelope holds neither
two chunks nor four, and cut off before this chunk it holds no three. -/
theorem uniquely_decodable_three :
    (∃ envelope, encode threeChunks = .ok envelope ∧ envelope.length = 22 ∧
      envelope.take 4 = [0, 0, 0, 0] ∧ decode envelope 3 = .ok threeChunks) ∧
    encode threeChunks = .ok threeEnvelope ∧
    (∀ count chunks, decode threeEnvelope count = .ok chunks → 3 = count) ∧
    ∃ cause, decode (threeEnvelope.take 14) 3 = .error (.invalid cause) := by
  have decoded : decode threeEnvelope 3 = .ok threeChunks := rfl
  obtain ⟨readable, written, counted, closed, -⟩ := uniquely_decodable
  refine ⟨readable threeChunks (by decide), written _ _ _ decoded, ?_, ?_⟩
  · intro count chunks again
    exact counted _ _ _ _ _ decoded again
  · apply closed threeEnvelope _ 3 threeChunks decoded
    · exact .inl (List.take_prefix 14 threeEnvelope)
    · decide

end PixelBlocks.Envelope

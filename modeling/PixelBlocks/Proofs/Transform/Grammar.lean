import PixelBlocks.Proofs.Corruption
import PixelBlocks.Proofs.Decoders

/-!
# Which bytes are run lengths

A count byte is a signed byte. From zero on it repeats the byte behind it, once more than it
says; below zero it asks for that many literal bytes. The decoder accepts exactly the byte
strings that split into such packets down to their last byte and stand for no more bytes than
the limit. Among them are packets that no encoder writes: repetitions of one or two bytes,
and 128 literal bytes.

A packet is expanded before the limit is looked at. So the expansion outgrows the limit by
one packet at most, and a buffer with room for one more packet is never outgrown.
-/

namespace PixelBlocks

namespace RunLength

/-- Bytes that split into packets, with what the packets stand for together. Count bytes are
read as signed bytes. -/
inductive Spells : (stored expansion : Bytes) → Prop where
  | nothing : Spells [] []
  | repeated (count value : UInt8) {rest expansion : Bytes}
      (repeats : 0 ≤ count.toInt8.toInt) (others : Spells rest expansion) :
      Spells (count :: value :: rest)
        (List.replicate (count.toInt8.toInt.toNat + 1) value ++ expansion)
  | literal (count : UInt8) (values : Bytes) {rest expansion : Bytes}
      (counted : count.toInt8.toInt < 0) (sized : (values.length : Int) = -count.toInt8.toInt)
      (others : Spells rest expansion) :
      Spells (count :: (values ++ rest)) (values ++ expansion)

section Packets

variable {count : UInt8} {following rest expansion : Bytes} {packet : Packet}

/-- The packets that can be read behind a count byte. -/
theorem takePacket_eq_ok_iff :
    takePacket count following = .ok (packet, rest) ↔
      (0 ≤ count.toInt8.toInt ∧ ∃ value, following = value :: rest ∧
        packet = .repeated (count.toInt8.toInt.toNat + 1) value) ∨
      (count.toInt8.toInt < 0 ∧ ∃ values, following = values ++ rest ∧
        (values.length : Int) = -count.toInt8.toInt ∧ packet = .literal values) := by
  have word := count.toNat_lt
  have half : (128 : UInt8).toNat = 128 := rfl
  unfold takePacket
  rw [Checked.toInt_toInt8]
  by_cases repeats : count < 128
  · simp only [if_pos repeats, Int.toNat_natCast]
    have positive : ¬ (count.toNat : Int) < 0 := by omega
    cases following with
    | nil => simp [positive]
    | cons value others =>
      simp only [positive, false_and, or_false, Int.natCast_nonneg, true_and, List.cons.injEq,
        Except.ok.injEq, Prod.mk.injEq]
      constructor
      · rintro ⟨rfl, rfl⟩
        exact ⟨value, ⟨rfl, rfl⟩, rfl⟩
      · rintro ⟨_, ⟨rfl, rfl⟩, rfl⟩
        exact ⟨rfl, rfl⟩
  · simp only [if_neg repeats]
    rw [UInt8.lt_iff_toNat_lt, half] at repeats
    have negative : ¬ 0 ≤ (count.toNat : Int) - 256 := by omega
    have counted : (count.toNat : Int) - 256 < 0 := by omega
    simp only [negative, false_and, false_or, counted, true_and]
    rw [Outcome.guard_eq_ok_iff, Except.ok.injEq, Prod.mk.injEq]
    constructor
    · rintro ⟨enough, rfl, rfl⟩
      refine ⟨_, (List.take_append_drop _ _).symm, ?_, rfl⟩
      rw [List.length_take] at enough ⊢
      omega
    · rintro ⟨values, rfl, sized, rfl⟩
      have length : values.length = 256 - count.toNat := by omega
      rw [List.take_left' length, List.drop_left' length]
      exact ⟨by omega, rfl, rfl⟩

/-- Bytes are spelled packet by packet. -/
theorem spells_cons_iff :
    Spells (count :: following) expansion ↔
      ∃ packet rest others, takePacket count following = .ok (packet, rest) ∧
        Spells rest others ∧ expansion = packet.expand ++ others := by
  constructor
  · intro spelled
    cases spelled with
    | repeated _ value repeats others =>
      exact ⟨_, _, _, takePacket_eq_ok_iff.mpr (.inl ⟨repeats, value, rfl, rfl⟩), others, rfl⟩
    | literal _ values counted sized others =>
      exact ⟨_, _, _, takePacket_eq_ok_iff.mpr (.inr ⟨counted, values, rfl, sized, rfl⟩), others,
        rfl⟩
  · rintro ⟨packet, rest, others, taken, spelled, rfl⟩
    rcases takePacket_eq_ok_iff.mp taken with
      ⟨repeats, value, rfl, rfl⟩ | ⟨counted, values, rfl, sized, rfl⟩
    · exact .repeated count value repeats spelled
    · exact .literal count values counted sized spelled

/-- A packet stands for 128 bytes at most. -/
theorem length_expand_le (taken : takePacket count following = .ok (packet, rest)) :
    packet.expand.length ≤ 128 := by
  have least := count.toInt8.le_toInt
  have most := count.toInt8.toInt_lt
  rcases takePacket_eq_ok_iff.mp taken with ⟨-, value, -, rfl⟩ | ⟨-, values, -, sized, rfl⟩
  · rw [Packet.expand, List.length_replicate]
    omega
  · rw [Packet.expand]
    omega

end Packets

/-- Expanding succeeds exactly on spelled bytes that stand for no more than there is room
for. The induction follows the reading of packets, and the expansion so far is arbitrary. -/
theorem unpackOnto_eq_ok_iff {expanded : Bytes} {room : Nat} {stored result : Bytes} :
    unpackOnto expanded room stored = .ok result ↔
      ∃ expansion, Spells stored expansion ∧ expansion.length ≤ room ∧
        result = expanded.reverse ++ expansion := by
  fun_induction unpackOnto expanded room stored with
  | case1 expanded room =>
    constructor
    · rintro ⟨⟩
      exact ⟨[], .nothing, Nat.zero_le _, (List.append_nil _).symm⟩
    · rintro ⟨expansion, ⟨⟩, -, rfl⟩
      rw [List.append_nil]
  | case2 expanded room count following fault failed =>
    simp only [spells_cons_iff, failed, reduceCtorEq, false_and, exists_false]
  | case3 expanded room count following packet rest taken values excess =>
    constructor
    · rintro ⟨⟩
    · rintro ⟨expansion, spelled, fits, -⟩
      obtain ⟨other, behind, others, read, -, rfl⟩ := spells_cons_iff.mp spelled
      cases taken.symm.trans read
      rw [List.length_append] at fits
      exact absurd excess (Nat.not_lt.mpr (Nat.le_of_add_right_le fits))
  | case4 expanded room count following packet rest taken values enough inductionHypothesis =>
    rw [inductionHypothesis]
    constructor
    · rintro ⟨others, spelled, fits, rfl⟩
      refine ⟨values ++ others, spells_cons_iff.mpr ⟨_, _, _, taken, spelled, rfl⟩, ?_, by simp⟩
      rw [List.length_append]
      exact Nat.add_le_of_le_sub' (Nat.not_lt.mp enough) fits
    · rintro ⟨expansion, spelled, fits, rfl⟩
      obtain ⟨other, behind, others, read, spelled, rfl⟩ := spells_cons_iff.mp spelled
      cases taken.symm.trans read
      refine ⟨others, spelled, ?_, by simp [values]⟩
      rw [List.length_append] at fits
      exact Nat.le_sub_of_add_le' fits

end RunLength

namespace Checked

open PixelBlocks.RunLength

/-- Bytes behind those of a buffer, if its capacity allows for both. -/
def grow (capacity : Nat) (buffer values : Bytes) : Checked Bytes :=
  if buffer.length + values.length ≤ capacity then .ok (buffer ++ values)
  else .error .outOfRange

/-- Expands packet after packet into a buffer of a capacity, in steps that are checked. The
limit is looked at after each packet. -/
def expandWithin (capacity limit : Nat) (buffer : Bytes) : Bytes → Checked Bytes
  | [] => .ok buffer
  | count :: following =>
    match _taken : takePacket count following with
    | .error stop => .error stop
    | .ok (packet, rest) => do
      let grown ← grow capacity buffer packet.expand
      if limit < grown.length then .error (.fault (.invalid .runLengthExcess))
      else expandWithin capacity limit grown rest
termination_by stored => stored.length
decreasing_by
  have shorter := length_takePacket_le _taken
  simp only [List.length_cons]
  omega

/-- The block of a run-length form, expanded into a buffer of a capacity in steps that are
checked. -/
def decompressWithin (capacity limit : Nat) (stored : Bytes) : Checked Bytes := do
  let prepared ← expandWithin capacity limit [] stored
  restore prepared

/-- A buffer that may exceed the limit by one packet is never outgrown. The induction follows
the reading of packets and carries that the limit was kept before the next one. -/
theorem expandWithin_eq_ofOutcome {limit room : Nat} {expanded : Bytes} (stored : Bytes)
    (kept : expanded.length + room = limit) :
    expandWithin (limit + 128) limit expanded.reverse stored =
      ofOutcome (RunLength.unpackOnto expanded room stored) := by
  fun_induction RunLength.unpackOnto expanded room stored with
  | case1 =>
    rw [expandWithin]
    rfl
  | case2 expanded room count following fault failed =>
    have same := takePacket_eq_ofOutcome count following
    rw [failed] at same
    rw [expandWithin, same]
    rfl
  | case3 expanded room count following packet rest taken values excess =>
    have same := takePacket_eq_ofOutcome count following
    rw [taken] at same
    have fits : expanded.reverse.length + packet.expand.length ≤ limit + 128 := by
      have packetFits := length_expand_le taken
      rw [List.length_reverse]
      omega
    have beyond : limit < (expanded.reverse ++ packet.expand).length := by
      have more : room < packet.expand.length := excess
      rw [List.length_append, List.length_reverse]
      omega
    rw [expandWithin, same]
    simp only [ofOutcome_ok, grow, if_pos fits, Outcome.ok_bind, if_pos beyond, ofOutcome_error]
  | case4 expanded room count following packet rest taken values enough inductionHypothesis =>
    have same := takePacket_eq_ofOutcome count following
    rw [taken] at same
    have kept : packet.expand.length ≤ room := Nat.not_lt.mp enough
    have fits : expanded.reverse.length + packet.expand.length ≤ limit + 128 := by
      rw [List.length_reverse]
      omega
    have within : ¬ limit < (expanded.reverse ++ packet.expand).length := by
      rw [List.length_append, List.length_reverse]
      omega
    have later := inductionHypothesis (by
      rw [List.length_append, List.length_reverse]
      omega)
    rw [List.reverse_append, List.reverse_reverse] at later
    rw [expandWithin, same]
    simp only [ofOutcome_ok, grow, if_pos fits, Outcome.ok_bind, if_neg within, later, values]

/-- A run-length form is expanded and undone in a buffer with room for one packet more than
the limit. -/
theorem decompressWithin_eq_ofOutcome (limit : Nat) (stored : Bytes) :
    decompressWithin (limit + 128) limit stored =
      ofOutcome (RunLength.decompress limit stored) := by
  have expanded : expandWithin (limit + 128) limit [] stored =
      ofOutcome (RunLength.unpackOnto [] limit stored) :=
    @expandWithin_eq_ofOutcome limit limit [] stored (Nat.zero_add limit)
  exact bind_eq_ofOutcome expanded fun prepared _ => restore_eq_ok prepared

end Checked

namespace RunLength

/-- Whatever the bytes are, the decoder ends within a buffer of 128 bytes more than the limit.
It accepts them exactly if they split into packets that stand for no more than the limit, and
gives what the packets stand for, integrated and interleaved. All other bytes are invalid. -/
theorem decompress_exactly_spelled (limit : Nat) (stored : Bytes) :
    Checked.decompressWithin (limit + 128) limit stored =
      Checked.ofOutcome (decompress limit stored) ∧
    (∀ samples, decompress limit stored = .ok samples ↔
      ∃ expansion, Spells stored expansion ∧ expansion.length ≤ limit ∧
        samples = Separation.interleave (Differences.toSamples expansion)) ∧
    ((∃ samples, decompress limit stored = .ok samples) ∨
      ∃ cause, decompress limit stored = .error (.invalid cause)) := by
  refine ⟨Checked.decompressWithin_eq_ofOutcome limit stored, fun samples => ?_,
    (invalidAtWorst_decompress limit stored).cases⟩
  rw [decompress, Outcome.bind_eq_ok_iff]
  constructor
  · rintro ⟨prepared, unpacked, restored⟩
    obtain ⟨expansion, spelled, fits, rfl⟩ := unpackOnto_eq_ok_iff.mp unpacked
    cases restored
    exact ⟨_, spelled, fits, rfl⟩
  · rintro ⟨expansion, spelled, fits, rfl⟩
    exact ⟨expansion, unpackOnto_eq_ok_iff.mpr ⟨expansion, spelled, fits, rfl⟩, rfl⟩

end RunLength

end PixelBlocks

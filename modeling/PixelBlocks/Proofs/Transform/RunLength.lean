import PixelBlocks.Transform.RunLength
import PixelBlocks.Proofs.Transform.Preparation

/-!
# Run lengths can be expanded

The encoder cuts its bytes into packets that a count byte can describe, and the
packets stand for exactly those bytes. The decoder takes such packets apart again,
one after another, as long as there is room for what they stand for.
-/

namespace PixelBlocks.RunLength

/-- A count byte can describe the packet: at least one byte and at most 128. -/
def Packet.Storable : Packet → Prop
  | .repeated count _ => 1 ≤ count ∧ count ≤ 128
  | .literal values => 1 ≤ values.length ∧ values.length ≤ 128

/-- A run and the bytes after it are all bytes. -/
theorem replicate_splitRun (value : UInt8) (limit : Nat) (bytes : Bytes) :
    List.replicate (splitRun value limit bytes).1 value ++ (splitRun value limit bytes).2
      = bytes := by
  fun_induction splitRun value limit bytes with
  | case1 limit rest count others split inductionHypothesis =>
    simp only [split] at inductionHypothesis
    simp [List.replicate_succ, inductionHypothesis]
  | case2 => rfl
  | case3 => rfl

/-- A run is not longer than its limit. -/
theorem splitRun_le (value : UInt8) (limit : Nat) (bytes : Bytes) :
    (splitRun value limit bytes).1 ≤ limit := by
  fun_induction splitRun value limit bytes with
  | case1 limit rest count others split inductionHypothesis =>
    simp only [split] at inductionHypothesis
    exact Nat.succ_le_succ inductionHypothesis
  | case2 => exact Nat.zero_le _
  | case3 => exact Nat.zero_le _

/-- Literal bytes and the bytes after them are all bytes. -/
theorem splitLiteral_append (limit : Nat) (bytes : Bytes) :
    (splitLiteral limit bytes).1 ++ (splitLiteral limit bytes).2 = bytes := by
  fun_induction splitLiteral limit bytes with
  | case1 => rfl
  | case2 limit first rest _ values others split inductionHypothesis =>
    simp only [split] at inductionHypothesis
    simp [inductionHypothesis]
  | case3 => rfl

/-- There are not more literal bytes than the limit. -/
theorem length_splitLiteral_le_limit (limit : Nat) (bytes : Bytes) :
    (splitLiteral limit bytes).1.length ≤ limit := by
  fun_induction splitLiteral limit bytes with
  | case1 => exact Nat.zero_le _
  | case2 limit first rest _ values others split inductionHypothesis =>
    simp only [split] at inductionHypothesis
    exact Nat.succ_le_succ inductionHypothesis
  | case3 => exact Nat.zero_le _

/-- The packets of a byte string stand for it. The induction follows the cutting:
what is left after a packet has packets of its own. -/
theorem flatMap_expand_packets (bytes : Bytes) : (packets bytes).flatMap Packet.expand = bytes := by
  fun_induction packets bytes with
  | case1 => rfl
  | case2 first rest run _ inductionHypothesis =>
    have whole := replicate_splitRun first 127 rest
    rw [List.flatMap_cons, inductionHypothesis, Packet.expand, List.replicate_succ,
      List.cons_append, whole]
  | case3 first rest run _ tail inductionHypothesis =>
    have whole : List.replicate run.1 first ++ run.2 = rest := replicate_splitRun first 127 rest
    have behind : tail.1 ++ tail.2 = run.2 := splitLiteral_append (126 - run.1) run.2
    rw [List.flatMap_cons, inductionHypothesis, Packet.expand]
    simp only [List.cons_append, List.append_assoc, behind, whole]

/-- A count byte can describe every packet that the encoder makes. -/
theorem storable_of_mem_packets (bytes : Bytes) : ∀ packet ∈ packets bytes, packet.Storable := by
  fun_induction packets bytes with
  | case1 => simp
  | case2 first rest run _ inductionHypothesis =>
    have bounded := splitRun_le first 127 rest
    intro packet member
    rcases List.mem_cons.mp member with rfl | later
    · exact ⟨Nat.le_add_left 1 _, Nat.succ_le_succ bounded⟩
    · exact inductionHypothesis packet later
  | case3 first rest run short tail inductionHypothesis =>
    have bounded : tail.1.length ≤ 126 - run.1 := length_splitLiteral_le_limit _ _
    intro packet member
    rcases List.mem_cons.mp member with rfl | later
    · simp only [Packet.Storable, List.length_append, List.length_cons, List.length_replicate]
      omega
    · exact inductionHypothesis packet later

/-- A storable packet is written as a count byte and what the count byte asks for,
so reading gives it back and leaves what follows. -/
theorem exists_takePacket_encode {packet : Packet} (storable : packet.Storable) :
    ∃ count following, packet.encode = count :: following ∧
      ∀ rest, takePacket count (following ++ rest) = .ok (packet, rest) := by
  cases packet with
  | repeated count value =>
    obtain ⟨atLeast, atMost⟩ := storable
    have byte : (count - 1).toUInt8.toNat = count - 1 := by
      simp only [Nat.toUInt8, UInt8.toNat_ofNat']
      omega
    have small : (count - 1).toUInt8 < 128 := by
      rw [UInt8.lt_iff_toNat_lt, byte]
      exact Nat.lt_of_lt_of_le (Nat.sub_lt atLeast Nat.one_pos) atMost
    refine ⟨_, _, rfl, fun rest => ?_⟩
    simp [takePacket, small, byte, Nat.sub_add_cancel atLeast]
  | literal values =>
    obtain ⟨atLeast, atMost⟩ := storable
    have byte : (0 - values.length.toUInt8).toNat = 256 - values.length := by
      rw [UInt8.toNat_sub]
      simp only [Nat.toUInt8, UInt8.toNat_ofNat', UInt8.toNat_zero]
      omega
    have large : ¬ (0 - values.length.toUInt8) < 128 := by
      rw [UInt8.lt_iff_toNat_lt, byte]
      exact Nat.not_lt_of_le (Nat.le_sub_of_add_le (Nat.add_le_add_left atMost 128))
    have count : 256 - (256 - values.length) = values.length := by omega
    refine ⟨_, _, rfl, fun rest => ?_⟩
    simp only [takePacket, if_neg large, byte, count]
    rw [List.take_left, List.drop_left, if_neg (Nat.lt_irrefl _)]

/-- One step of expanding: the packet at the front is added if there is room. -/
theorem unpackOnto_cons {count : UInt8} {following rest : Bytes} {packet : Packet}
    (expanded : Bytes) (room : Nat) (taken : takePacket count following = .ok (packet, rest)) :
    unpackOnto expanded room (count :: following) =
      if room < packet.expand.length then .error (.invalid .runLengthExcess)
      else unpackOnto (packet.expand.reverse ++ expanded) (room - packet.expand.length) rest := by
  rw [unpackOnto]
  split
  · simp_all
  · simp_all

/-- Storable packets that fit into the room are expanded in order. The expansion so
far is arbitrary, and the room shrinks as it grows. -/
theorem unpackOnto_encode {written : List Packet}
    (storable : ∀ packet ∈ written, packet.Storable) (expanded : Bytes) (room : Nat)
    (fits : (written.flatMap Packet.expand).length ≤ room) :
    unpackOnto expanded room (written.flatMap Packet.encode) =
      .ok (expanded.reverse ++ written.flatMap Packet.expand) := by
  induction written generalizing expanded room with
  | nil => simp [unpackOnto]
  | cons packet others inductionHypothesis =>
    obtain ⟨count, following, encoded, taken⟩ :=
      exists_takePacket_encode (storable packet (by simp))
    rw [List.flatMap_cons, List.length_append] at fits
    have enough : ¬ room < packet.expand.length := by omega
    have enoughLater : (others.flatMap Packet.expand).length ≤ room - packet.expand.length := by
      omega
    rw [List.flatMap_cons, encoded, List.cons_append, unpackOnto_cons _ _ (taken _), if_neg enough,
      inductionHypothesis (fun other member => storable other (by simp [member])) _ _ enoughLater]
    simp

/-- Run lengths expand to the bytes they were made of, if these fit. -/
theorem unpack_pack {limit : Nat} {bytes : Bytes} (fits : bytes.length ≤ limit) :
    unpack limit (pack bytes) = .ok bytes := by
  have whole := flatMap_expand_packets bytes
  rw [unpack, pack, unpackOnto_encode (storable_of_mem_packets bytes) [] limit (by rwa [whole]),
    whole]
  rfl

/-- A block comes back from its run-length form. -/
theorem decompress_pack_prepare {limit : Nat} {samples : Bytes} (fits : samples.length ≤ limit) :
    decompress limit (pack (Preparation.prepare samples)) = .ok samples := by
  have roomy : (Preparation.prepare samples).length ≤ limit := by simpa using fits
  unfold decompress
  rw [unpack_pack roomy]
  exact congrArg Except.ok (Preparation.restore_prepare samples)

end PixelBlocks.RunLength

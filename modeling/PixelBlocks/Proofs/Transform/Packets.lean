import PixelBlocks.Proofs.Transform.RunLength

/-!
# The shape of run lengths

The encoder repeats a byte only where at least three equal ones stand, which saves a byte,
and it ends a literal packet only where three equal bytes follow, where nothing follows, or
where the packet is full. So a literal packet, which costs a byte, is followed by a packet
that saves one, unless it is full or the last. This bounds the growth by one byte for every
127, rounded up.
-/

namespace PixelBlocks.RunLength

section Runs

variable {value first : UInt8} {bytes rest : Bytes} {limit : Nat}

/-- Equal bytes in front are a run. -/
theorem startsRun_same (value : UInt8) (rest : Bytes) :
    startsRun (value :: value :: value :: rest) = true := by
  simp [startsRun]

/-- What starts a run begins with three equal bytes. -/
theorem exists_of_startsRun (run : startsRun bytes = true) :
    ∃ value rest, bytes = value :: value :: value :: rest := by
  match bytes, run with
  | first :: second :: third :: rest, run =>
    rw [startsRun, Bool.and_eq_true, beq_iff_eq, beq_iff_eq] at run
    obtain ⟨rfl, rfl⟩ := run
    exact ⟨first, rest, rfl⟩

/-- The run at the front goes on for two bytes at least if three equal bytes stand there. -/
theorem two_le_splitRun (run : startsRun (first :: rest) = true) :
    2 ≤ (splitRun first 127 rest).1 := by
  obtain ⟨value, others, same⟩ := exists_of_startsRun run
  cases same
  simp [splitRun]

/-- A run that ends before its limit is not followed by its byte. -/
theorem splitRun_ne_cons (short : (splitRun value limit bytes).1 < limit) :
    (splitRun value limit bytes).2 ≠ value :: rest := by
  fun_induction splitRun value limit bytes with
  | case1 limit following count others split inductionHypothesis =>
    simp only [split] at inductionHypothesis
    exact inductionHypothesis (Nat.lt_of_succ_lt_succ short)
  | case2 limit other following different =>
    intro same
    exact different (List.cons.inj same).1
  | case3 limit bytes stopped =>
    intro same
    cases limit with
    | zero => exact absurd short (Nat.not_lt_zero _)
    | succ limit => exact stopped limit value rest rfl same

/-- One or two equal bytes are no run if another byte follows. -/
theorem startsRun_replicate {count : Nat} (some : 1 ≤ count) (few : count ≤ 2)
    (ended : ∀ others, rest ≠ value :: others) :
    startsRun (List.replicate count value ++ rest) = false := by
  apply Bool.eq_false_iff.mpr
  intro run
  obtain ⟨same, others, split⟩ := exists_of_startsRun run
  obtain rfl | rfl : count = 1 ∨ count = 2 := by omega
  · obtain ⟨rfl, behind⟩ := List.cons.inj split
    exact ended _ behind
  · obtain ⟨rfl, behind⟩ := List.cons.inj split
    exact ended _ (List.cons.inj behind).2

end Runs

section Literals

variable {before after bytes : Bytes} {limit : Nat}

/-- No run starts within literal bytes, not even one that goes on behind them. -/
theorem startsRun_splitLiteral (inside : (splitLiteral limit bytes).1 = before ++ after)
    (some : after ≠ []) : startsRun (after ++ (splitLiteral limit bytes).2) = false := by
  fun_induction splitLiteral limit bytes generalizing before with
  | case1 =>
    obtain ⟨-, none⟩ := List.append_eq_nil_iff.mp inside.symm
    exact absurd none some
  | case2 limit first rest plain values others split inductionHypothesis =>
    simp only [split] at inductionHypothesis
    have whole := splitLiteral_append limit rest
    rw [split] at whole
    cases before with
    | nil =>
      rw [List.nil_append] at inside
      rw [← inside, List.cons_append, whole]
      exact Bool.eq_false_iff.mpr plain
    | cons earlier before =>
      exact inductionHypothesis (List.cons.inj inside).2
  | case3 =>
    obtain ⟨-, none⟩ := List.append_eq_nil_iff.mp inside.symm
    exact absurd none some

/-- Literal bytes that end before their limit are followed by a run or by nothing. -/
theorem startsRun_behind_literal (short : (splitLiteral limit bytes).1.length < limit) :
    startsRun (splitLiteral limit bytes).2 = true ∨ (splitLiteral limit bytes).2 = [] := by
  fun_induction splitLiteral limit bytes with
  | case1 limit first rest run => exact .inl run
  | case2 limit first rest plain values others split inductionHypothesis =>
    simp only [split] at inductionHypothesis
    exact inductionHypothesis (Nat.lt_of_succ_lt_succ short)
  | case3 limit bytes stopped =>
    cases limit with
    | zero => exact absurd short (Nat.not_lt_zero _)
    | succ limit =>
      cases bytes with
      | nil => exact .inr rfl
      | cons first rest => exact absurd rfl (stopped limit first rest rfl)

end Literals

section Packets

variable {first : UInt8} {rest bytes : Bytes}

/-- The bytes of a literal packet: those of a run that is too short, and the literal bytes
behind it. -/
def literalBytes (first : UInt8) (rest : Bytes) : Bytes :=
  let run := splitRun first 127 rest
  first :: List.replicate run.1 first ++ (splitLiteral (126 - run.1) run.2).1

/-- What a literal packet leaves. -/
def behindLiteral (first : UInt8) (rest : Bytes) : Bytes :=
  let run := splitRun first 127 rest
  (splitLiteral (126 - run.1) run.2).2

/-- The size of a literal packet is that of its two parts. -/
theorem length_literalBytes (first : UInt8) (rest : Bytes) :
    (literalBytes first rest).length = (splitRun first 127 rest).1 + 1 +
      (splitLiteral (126 - (splitRun first 127 rest).1) (splitRun first 127 rest).2).1.length := by
  simp [literalBytes]
  omega

/-- A literal packet and what it leaves are all bytes. -/
theorem literalBytes_append (first : UInt8) (rest : Bytes) :
    literalBytes first rest ++ behindLiteral first rest = first :: rest := by
  have behind := splitLiteral_append (126 - (splitRun first 127 rest).1) (splitRun first 127 rest).2
  have whole := replicate_splitRun first 127 rest
  simp only [literalBytes, behindLiteral, List.cons_append, List.append_assoc, behind, whole]

/-- A literal packet has at most 127 bytes if the run in front of it is short. -/
theorem length_literalBytes_le (short : ¬ 2 ≤ (splitRun first 127 rest).1) :
    (literalBytes first rest).length ≤ 127 := by
  have bounded := length_splitLiteral_le_limit (126 - (splitRun first 127 rest).1)
    (splitRun first 127 rest).2
  rw [length_literalBytes]
  omega

/-- No three equal bytes in a row are literal. They would start in the short run, which a
different byte ends, or behind it, where no run starts. -/
theorem literalBytes_ne_triple (short : ¬ 2 ≤ (splitRun first 127 rest).1)
    (before after : Bytes) (value : UInt8) :
    literalBytes first rest ≠ before ++ value :: value :: value :: after := by
  intro same
  have triple := startsRun_same value after
  have apart : ∀ before, (splitLiteral (126 - (splitRun first 127 rest).1)
      (splitRun first 127 rest).2).1 ≠ before ++ value :: value :: value :: after := by
    intro before inside
    have plain := startsRun_splitLiteral inside (by simp)
    rw [List.cons_append, List.cons_append, List.cons_append, startsRun_same] at plain
    cases plain
  rw [literalBytes, ← List.replicate_succ, List.append_eq_append_iff] at same
  rcases same with ⟨middle, -, inside⟩ | ⟨middle, run, split⟩
  · exact apart middle inside
  · obtain ⟨counted, -, repeated⟩ := List.append_eq_replicate_iff.mp run.symm
    by_cases none : middle.length = 0
    · rw [List.length_eq_zero_iff.mp none, List.nil_append] at split
      exact apart [] split.symm
    · have ended : (splitRun first 127 rest).1 < 127 := by omega
      have whole := splitLiteral_append (126 - (splitRun first 127 rest).1)
        (splitRun first 127 rest).2
      rw [split, repeated, startsRun_replicate (by omega) (by omega)] at triple
      · cases triple
      · intro others again
        rw [again, List.cons_append] at whole
        exact splitRun_ne_cons ended whole.symm

/-- Bytes that start with a run are packed as one first. -/
theorem exists_packets_of_startsRun (run : startsRun bytes = true) :
    ∃ count value others, packets bytes = .repeated count value :: others := by
  cases bytes with
  | nil => cases run
  | cons first rest =>
    rw [packets, if_pos (two_le_splitRun run)]
    exact ⟨_, _, _, rfl⟩

/-- What follows a literal packet that is not full is empty or starts with a run. -/
theorem startsRun_behindLiteral (room : (literalBytes first rest).length < 127) :
    startsRun (behindLiteral first rest) = true ∨ behindLiteral first rest = [] := by
  apply startsRun_behind_literal
  rw [length_literalBytes] at room
  omega

/-- What a packet of the encoder holds: a run that saves a byte at least, or bytes without
any run, as many as a count byte can say. -/
def Packet.Economical : Packet → Prop
  | .repeated count _ => 3 ≤ count ∧ count ≤ 128
  | .literal values => (1 ≤ values.length ∧ values.length ≤ 127) ∧
      ∀ before value after, values ≠ before ++ value :: value :: value :: after

/-- All packets of the encoder hold that. -/
theorem economical_of_mem_packets (bytes : Bytes) :
    ∀ packet ∈ packets bytes, packet.Economical := by
  fun_induction packets bytes with
  | case1 => simp
  | case2 first rest run long inductionHypothesis =>
    have bounded := splitRun_le first 127 rest
    rw [List.forall_mem_cons]
    constructor
    · exact ⟨Nat.succ_le_succ long, Nat.succ_le_succ bounded⟩
    · exact inductionHypothesis
  | case3 first rest run short tail inductionHypothesis =>
    rw [List.forall_mem_cons]
    constructor
    · refine ⟨⟨Nat.succ_le_succ (Nat.zero_le _), length_literalBytes_le short⟩, ?_⟩
      intro before value after
      exact literalBytes_ne_triple short before after value
    · exact inductionHypothesis

/-- Of two literal packets in a row the first is full. -/
theorem length_eq_of_literals (bytes : Bytes) {first second : Bytes} {after : List Packet} :
    ∀ before, packets bytes = before ++ .literal first :: .literal second :: after →
      first.length = 127 := by
  fun_induction packets bytes with
  | case1 => simp
  | case2 value rest run long inductionHypothesis =>
    intro before cut
    cases before with
    | nil => cases (List.cons.inj cut).1
    | cons earlier before => exact inductionHypothesis before (List.cons.inj cut).2
  | case3 value rest run short tail inductionHypothesis =>
    intro before cut
    cases before with
    | nil =>
      obtain ⟨here, later⟩ := List.cons.inj cut
      have same : literalBytes value rest = first := Packet.literal.inj here
      rw [← same]
      rcases Nat.lt_or_eq_of_le (length_literalBytes_le short) with room | full
      · exfalso
        -- a packet that is not full leaves a run or nothing, and neither is packed as literal
        rcases startsRun_behindLiteral room with starts | none
        · obtain ⟨count, byte, others, repeated⟩ := exists_packets_of_startsRun starts
          cases later.symm.trans repeated
        · have ended : packets tail.2 = [] := (congrArg packets none).trans packets.eq_1
          cases later.symm.trans ended
      · exact full
    | cons earlier before => exact inductionHypothesis before (List.cons.inj cut).2

/-- A packet takes a byte more than its literal bytes. -/
theorem length_pack_literal (short : ¬ 2 ≤ (splitRun first 127 rest).1) :
    (pack (first :: rest)).length =
      (literalBytes first rest).length + 1 + (pack (behindLiteral first rest)).length := by
  rw [pack, packets, if_neg short, List.flatMap_cons, List.length_append]
  rfl

/-- Run lengths take at most one byte more for every 127 bytes, rounded up. The induction
carries that bytes which start with a run take one byte less: this byte pays for a literal
packet in front of them that is not full. -/
theorem length_pack_le (bytes : Bytes) :
    (pack bytes).length + (startsRun bytes).toNat ≤ bytes.length + (bytes.length + 126) / 127 := by
  fun_induction packets bytes with
  | case1 => simp [pack, packets, startsRun]
  | case2 first rest run long inductionHypothesis =>
    have whole : run.1 + run.2.length = rest.length := by
      have lengths := congrArg List.length (replicate_splitRun first 127 rest)
      rwa [List.length_append, List.length_replicate] at lengths
    have packed : (pack (first :: rest)).length = 2 + (pack run.2).length := by
      rw [pack, packets, if_pos long, List.flatMap_cons, List.length_append]
      rfl
    have saved := Bool.toNat_le (startsRun (first :: rest))
    rw [packed, List.length_cons]
    omega
  | case3 first rest run short tail inductionHypothesis =>
    have plain : startsRun (first :: rest) = false := by
      apply Bool.eq_false_iff.mpr
      intro starts
      exact short (two_le_splitRun starts)
    have whole := congrArg List.length (literalBytes_append first rest)
    rw [List.length_append] at whole
    have most := length_literalBytes_le short
    have behind : (pack (behindLiteral first rest)).length +
        (startsRun (behindLiteral first rest)).toNat ≤ (behindLiteral first rest).length +
          ((behindLiteral first rest).length + 126) / 127 := inductionHypothesis
    rw [length_pack_literal short, plain, ← whole]
    by_cases room : (literalBytes first rest).length < 127
    · rcases startsRun_behindLiteral room with starts | none
      · rw [starts] at behind
        simp only [Bool.toNat_true, Bool.toNat_false] at behind ⊢
        omega
      · have some : 1 ≤ (literalBytes first rest).length := by
          rw [length_literalBytes]
          omega
        simp only [none, pack, packets, List.flatMap_nil, List.length_nil, Bool.toNat_false]
        omega
    · simp only [Bool.toNat_false]
      omega

end Packets

end PixelBlocks.RunLength

import PixelBlocks.Fault
import PixelBlocks.Transform.Preparation

/-!
# Run lengths

Prepared bytes are written as packets. A packet repeats one byte
up to 128 times, or holds up to 127 bytes as they are. Its count byte is the
number of repetitions less one, or the negated number of literal bytes. Readers
also accept literal packets of 128 bytes.
-/

namespace PixelBlocks.RunLength

/-- A piece of a run-length encoding. -/
inductive Packet
  /-- One byte, several times. -/
  | repeated (count : Nat) (value : UInt8)
  /-- Bytes as they are. -/
  | literal (values : Bytes)
  deriving DecidableEq, Repr

namespace Packet

/-- The bytes that a packet stands for. -/
def expand : Packet → Bytes
  | repeated count value => List.replicate count value
  | literal values => values

/-- The written form of a packet. -/
def encode : Packet → Bytes
  | repeated count value => [(count - 1).toUInt8, value]
  | literal values => (0 - values.length.toUInt8) :: values

end Packet

/-- How many bytes at the front equal a value, counted up to a limit, and the
    bytes after them. -/
def splitRun (value : UInt8) : (limit : Nat) → Bytes → Nat × Bytes
  | limit + 1, first :: rest =>
    if first = value then
      let (count, others) := splitRun value limit rest
      (count + 1, others)
    else (0, first :: rest)
  | _, bytes => (0, bytes)

/-- Whether the first three bytes are equal. -/
def startsRun : Bytes → Bool
  | first :: second :: third :: _ => first == second && second == third
  | _ => false

/-- The bytes before the next three equal ones, at most as many as the limit,
    and the bytes after them. -/
def splitLiteral : (limit : Nat) → Bytes → Bytes × Bytes
  | limit + 1, first :: rest =>
    if startsRun (first :: rest) then ([], first :: rest)
    else
      let (values, others) := splitLiteral limit rest
      (first :: values, others)
  | _, bytes => ([], bytes)

/-- Splitting off a run leaves no more bytes than before. -/
theorem length_splitRun_le (value : UInt8) (limit : Nat) (bytes : Bytes) :
    (splitRun value limit bytes).2.length ≤ bytes.length := by
  fun_induction splitRun value limit bytes with
  | case1 limit rest count others split inductionHypothesis =>
    simp only [split] at inductionHypothesis
    simp only [List.length_cons]
    omega
  | case2 => simp
  | case3 => simp

/-- Splitting off literal bytes leaves no more bytes than before. -/
theorem length_splitLiteral_le (limit : Nat) (bytes : Bytes) :
    (splitLiteral limit bytes).2.length ≤ bytes.length := by
  fun_induction splitLiteral limit bytes with
  | case1 => simp
  | case2 limit first rest _ values others split inductionHypothesis =>
    simp only [split] at inductionHypothesis
    simp only [List.length_cons]
    omega
  | case3 => simp

/-- Cuts bytes into packets. Three equal bytes start a repetition; all bytes up
    to the next three equal ones are literal. -/
def packets : Bytes → List Packet
  | [] => []
  | first :: rest =>
    let run := splitRun first 127 rest
    if 2 ≤ run.1 then .repeated (run.1 + 1) first :: packets run.2
    else
      let tail := splitLiteral (126 - run.1) run.2
      .literal (first :: List.replicate run.1 first ++ tail.1) :: packets tail.2
termination_by bytes => bytes.length
decreasing_by
  · have shorter := length_splitRun_le first 127 rest
    simp only [List.length_cons]
    omega
  · have shorter := length_splitRun_le first 127 rest
    have shorterStill := length_splitLiteral_le (126 - (splitRun first 127 rest).1)
      (splitRun first 127 rest).2
    simp only [List.length_cons]
    omega

/-- The packets of a byte string, written one after another. -/
def pack (bytes : Bytes) : Bytes :=
  (packets bytes).flatMap Packet.encode

/-- Reads the packet at the front of a non-empty byte string, given its count
    byte and what follows. -/
def takePacket (count : UInt8) (following : Bytes) : Outcome (Packet × Bytes) :=
  if count < 128 then
    match following with
    | [] => .error (.invalid .runLength)
    | value :: rest => .ok (.repeated (count.toNat + 1) value, rest)
  else
    let length := 256 - count.toNat
    let values := following.take length
    if values.length < length then .error (.invalid .runLength)
    else .ok (.literal values, following.drop length)

/-- A packet takes at least its count byte. -/
theorem length_takePacket_le {count : UInt8} {following rest : Bytes} {packet : Packet}
    (taken : takePacket count following = .ok (packet, rest)) :
    rest.length ≤ following.length := by
  unfold takePacket at taken
  split at taken
  · cases following with
    | nil => simp at taken
    | cons value others =>
      simp only [Except.ok.injEq, Prod.mk.injEq] at taken
      simp [← taken.2]
  · dsimp only at taken
    split at taken
    · simp at taken
    · simp only [Except.ok.injEq, Prod.mk.injEq] at taken
      simp [← taken.2]

/-- Expands packet after packet onto a reversed expansion, refusing to exceed the
    room that is left. -/
def unpackOnto (expanded : Bytes) (room : Nat) : Bytes → Outcome Bytes
  | [] => .ok expanded.reverse
  | count :: following =>
    match _taken : takePacket count following with
    | .error fault => .error fault
    | .ok (packet, rest) =>
      let values := packet.expand
      if room < values.length then .error (.invalid .runLengthExcess)
      else unpackOnto (values.reverse ++ expanded) (room - values.length) rest
termination_by bytes => bytes.length
decreasing_by
  have shorter := length_takePacket_le _taken
  simp only [List.length_cons]
  omega

/-- The expansion of packets, of which there may be at most `limit` bytes. -/
def unpack (limit : Nat) (bytes : Bytes) : Outcome Bytes :=
  unpackOnto [] limit bytes

/-- The run-length form of a block. -/
def compress (samples : Bytes) : Bytes :=
  pack (Preparation.prepare samples)

/-- The block of a run-length form, of at most `limit` bytes. -/
def decompress (limit : Nat) (compressed : Bytes) : Outcome Bytes := do
  let prepared ← unpack limit compressed
  return Preparation.restore prepared

end PixelBlocks.RunLength

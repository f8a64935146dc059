import Mathlib.Data.List.Forall2
import PixelBlocks.Proofs.Corruption
import PixelBlocks.Proofs.Scalar

/-!
# Streams of numbers

Numbers of all kinds are written behind each other, one at a time, as slices, or as slices
behind their length. Calls that ask for the same kinds and counts read them back, bit for
bit, and leave what follows them. Reading moves a cursor. A read of a fixed width that ends
early leaves the cursor anywhere; a counted read compares its size with the bytes first, so
it is refused before the cursor moves.
-/

namespace PixelBlocks

namespace Cursor

/-- The bytes that are left by a read that asks for a number of bytes and finds too few. Sources
differ in this. -/
abbrev Abandoned := Nat → Bytes → Bytes

/-- The result of a read, and the bytes that it leaves: those behind the result, or the given
ones if it fails. -/
def leaving {Result : Type} (failed : Bytes) : Outcome (Result × Bytes) → Outcome Result × Bytes
  | .ok (result, rest) => (.ok result, rest)
  | .error fault => (.error fault, failed)

variable (abandoned : Abandoned) (kind : Scalar) (count : Nat) (bytes : Bytes)

/-- Reads one number. -/
def read : Outcome kind.Value × Bytes :=
  leaving (abandoned kind.width bytes) (kind.read bytes)

/-- Fills a slice of numbers. -/
def readSlice : Outcome (List kind.Value) × Bytes :=
  leaving (abandoned (count * kind.width) bytes) (kind.readSlice count bytes)

/-- Reads as many numbers as asked for, after checking that enough bytes are left. -/
def readVector : Outcome (List kind.Value) × Bytes :=
  match Size.mul? count kind.width with
  | none => (.error (.invalid .valueCount), bytes)
  | some needed =>
    if bytes.length < needed then (.error (.invalid .missingBytes), bytes)
    else readSlice abandoned kind count bytes

end Cursor

namespace Scalar

/-- Numbers of one kind. -/
structure Numbers where
  kind : Scalar
  values : List kind.Value

/-- The bytes of numbers of one kind. -/
def Numbers.encode (numbers : Numbers) : Bytes := numbers.kind.encodeAll numbers.values

/-- A write of numbers. -/
inductive Write
  | one (kind : Scalar) (value : kind.Value)
  | slice (kind : Scalar) (values : List kind.Value)
  /-- The length as a signed 32-bit number comes first. -/
  | sized (kind : Scalar) (values : List kind.Value)

namespace Write

/-- How many numbers a write was given. -/
def count : Write → Nat
  | one _ _ => 1
  | slice _ values => values.length
  | sized _ values => values.length

/-- The numbers that a write stores, in order. -/
def parts : Write → List Numbers
  | one kind value => [⟨kind, [value]⟩]
  | slice kind values => [⟨kind, values⟩]
  | sized kind values => [⟨int32, [Int32.ofNat values.length]⟩, ⟨kind, values⟩]

/-- Performs a write. -/
def run (writer : Writer) : Write → Outcome Writer
  | one kind value => writer.write kind value
  | slice kind values => writer.writeSlice kind values
  | sized kind values => writer.writeSized kind values

/-- Performs one write after another. -/
def runAll (writes : List Write) (writer : Writer) : Outcome Writer :=
  writes.foldlM run writer

end Write

/-- A call that reads numbers. -/
inductive Call
  | one (kind : Scalar)
  | slice (kind : Scalar) (count : Nat)
  | vector (kind : Scalar) (count : Nat)

namespace Call

/-- The numbers that a call reads, and the bytes that it leaves. -/
def run (abandoned : Cursor.Abandoned) (bytes : Bytes) : Call → Outcome Numbers × Bytes
  | one kind =>
    let (value, left) := Cursor.read abandoned kind bytes
    (value.map fun value => ⟨kind, [value]⟩, left)
  | slice kind count =>
    let (values, left) := Cursor.readSlice abandoned kind count bytes
    (values.map (Numbers.mk kind), left)
  | vector kind count =>
    let (values, left) := Cursor.readVector abandoned kind count bytes
    (values.map (Numbers.mk kind), left)

/-- The numbers of one call after another, up to the first that fails, and the bytes that are
left then. -/
def runAll (abandoned : Cursor.Abandoned) : List Call → Bytes → Outcome (List Numbers) × Bytes
  | [], bytes => (.ok [], bytes)
  | call :: others, bytes =>
    match call.run abandoned bytes with
    | (.error fault, left) => (.error fault, left)
    | (.ok numbers, left) =>
      let (later, left) := runAll abandoned others left
      (later.map (numbers :: ·), left)

/-- A call asks for numbers of this kind, and for as many. -/
inductive Matches : Call → Numbers → Prop
  | one (kind : Scalar) (value : kind.Value) : Matches (.one kind) ⟨kind, [value]⟩
  | slice (kind : Scalar) (values : List kind.Value) :
    Matches (.slice kind values.length) ⟨kind, values⟩
  | vector (kind : Scalar) (values : List kind.Value) :
    Matches (.vector kind values.length) ⟨kind, values⟩

end Call

section Writing

/-- The bytes of a single number. -/
@[simp] theorem Numbers.encode_singleton (kind : Scalar) (value : kind.Value) :
    Numbers.encode ⟨kind, [value]⟩ = kind.encode value := by
  simp [Numbers.encode, encodeAll]

/-- A byte vector takes all bytes. -/
theorem append_unlimited (before bytes : Bytes) :
    Writer.append ⟨before, none⟩ bytes = .ok ⟨before ++ bytes, none⟩ := rfl

/-- A write of few numbers appends the bytes of its parts. -/
theorem Write.run_eq_ok {write : Write} (short : write.count < 0x80000000) (before : Bytes) :
    write.run ⟨before, none⟩ = .ok ⟨before ++ write.parts.flatMap Numbers.encode, none⟩ := by
  cases write with
  | one kind value =>
    rw [run, Writer.write, append_unlimited]
    simp [parts]
  | slice kind values =>
    rw [run, Writer.writeSlice, append_unlimited]
    simp [parts, Numbers.encode]
  | sized kind values =>
    have fits : ¬ 0x80000000 ≤ values.length := Nat.not_le_of_lt short
    rw [run, Writer.writeSized, encodeSized, if_neg fits, Outcome.ok_bind, append_unlimited, parts,
      List.flatMap_cons, Numbers.encode_singleton, List.flatMap_singleton]
    rfl

/-- Writes one after another append the bytes of all their parts. The induction keeps what was
written before. -/
theorem Write.runAll_eq_ok {writes : List Write}
    (short : ∀ write ∈ writes, write.count < 0x80000000) (before : Bytes) :
    runAll writes ⟨before, none⟩ =
      .ok ⟨before ++ (writes.flatMap parts).flatMap Numbers.encode, none⟩ := by
  induction writes generalizing before with
  | nil => simp [runAll]
  | cons write others inductionHypothesis =>
    obtain ⟨here, later⟩ := List.forall_mem_cons.mp short
    have rest := inductionHypothesis later (before ++ write.parts.flatMap Numbers.encode)
    rw [runAll] at rest
    rw [runAll, List.foldlM_cons, run_eq_ok here, Outcome.ok_bind, rest, List.flatMap_cons,
      List.flatMap_append, List.append_assoc]

end Writing

section Reading

/-- No number takes more than eight bytes. -/
theorem width_le (kind : Scalar) : kind.width ≤ 8 := by
  cases kind <;> decide

/-- Fewer numbers than a length can count take fewer bytes than any size can. -/
theorem mul_width_lt_bound (kind : Scalar) {count : Nat} (short : count < 0x80000000) :
    count * kind.width < Size.bound := by
  have most := Nat.mul_le_mul_left count kind.width_le
  rw [Size.bound]
  omega

/-- Numbers are read from the front if there are enough bytes for them. -/
theorem exists_readSlice (kind : Scalar) {count : Nat} {bytes : Bytes}
    (enough : count * kind.width ≤ bytes.length) :
    ∃ values rest, kind.readSlice count bytes = .ok (values, rest) := by
  induction count generalizing bytes with
  | zero => exact ⟨[], bytes, rfl⟩
  | succ count inductionHypothesis =>
    rw [Nat.succ_mul] at enough
    have behind : count * kind.width ≤ (bytes.drop kind.width).length := by
      rw [List.length_drop]
      omega
    obtain ⟨others, rest, read⟩ := inductionHypothesis behind
    refine ⟨kind.decode (bytes.take kind.width) :: others, rest, ?_⟩
    rw [readSlice, Scalar.read, takeBytes_of_le (by omega)]
    simp [read]

/-- Numbers that were read are those whose bytes stand in front, and what is left follows them. -/
theorem split_of_encodeAll {kind : Scalar} {values : List kind.Value} {bytes rest : Bytes}
    (joined : bytes = kind.encodeAll values ++ rest) :
    kind.encodeAll values = bytes.take (values.length * kind.width) ∧
      rest = bytes.drop (values.length * kind.width) := by
  rw [joined, ← length_encodeAll, List.take_left, List.drop_left]
  exact ⟨rfl, rfl⟩

/-- The check of a counted read is enough for it to succeed, so the cursor stays where it is if
the read fails. -/
theorem readVector_eq_leaving (abandoned : Cursor.Abandoned) (kind : Scalar) (count : Nat)
    (bytes : Bytes) :
    Cursor.readVector abandoned kind count bytes =
      Cursor.leaving bytes (kind.readVector count bytes) := by
  rw [Cursor.readVector, readVector]
  cases sized : Size.mul? count kind.width with
  | none => rfl
  | some needed =>
    dsimp only
    by_cases missing : bytes.length < needed
    · rw [if_pos missing, if_pos missing]
      rfl
    · obtain ⟨-, rfl⟩ := Size.mul?_eq_some_iff.mp sized
      obtain ⟨values, rest, read⟩ := kind.exists_readSlice (Nat.not_lt.mp missing)
      rw [if_neg missing, if_neg missing, Cursor.readSlice, read]
      rfl

/-- A counted read of bytes that are there, and not more than any size, gives the numbers whose
bytes they are. -/
theorem exists_readVector (kind : Scalar) {count : Nat} {bytes : Bytes}
    (word : count * kind.width < Size.bound) (enough : count * kind.width ≤ bytes.length) :
    ∃ values, values.length = count ∧
      kind.encodeAll values = bytes.take (count * kind.width) ∧
      kind.readVector count bytes = .ok (values, bytes.drop (count * kind.width)) := by
  obtain ⟨values, rest, read⟩ := kind.exists_readSlice enough
  obtain ⟨rfl, joined⟩ := readSlice_eq_ok_iff.mp read
  obtain ⟨front, rfl⟩ := split_of_encodeAll joined
  exact ⟨values, rfl, front, readVector_eq_ok_iff.mpr ⟨word, rfl, joined⟩⟩

/-- Any other counted read is invalid. -/
theorem readVector_invalid (kind : Scalar) {count : Nat} {bytes : Bytes}
    (refused : ¬ (count * kind.width < Size.bound ∧ count * kind.width ≤ bytes.length)) :
    ∃ cause, kind.readVector count bytes = .error (.invalid cause) := by
  rcases (kind.invalidAtWorst_readVector count bytes).cases with ⟨⟨values, rest⟩, read⟩ | failed
  · obtain ⟨word, rfl, rfl⟩ := readVector_eq_ok_iff.mp read
    exact absurd ⟨word, by simp⟩ refused
  · exact failed

/-- A call reads back the numbers that it matches and leaves what follows them. -/
theorem Call.Matches.run_eq_ok {call : Call} {numbers : Numbers} (matched : call.Matches numbers)
    (word : numbers.values.length * numbers.kind.width < Size.bound)
    (abandoned : Cursor.Abandoned) (rest : Bytes) :
    call.run abandoned (numbers.encode ++ rest) = (.ok numbers, rest) := by
  cases matched with
  | one kind value =>
    rw [run, Cursor.read, Numbers.encode_singleton, read_encode_append]
    rfl
  | slice kind values =>
    rw [run, Cursor.readSlice, Numbers.encode, readSlice_eq_ok_iff.mpr ⟨rfl, rfl⟩]
    rfl
  | vector kind values =>
    rw [run, readVector_eq_leaving, Numbers.encode, readVector_eq_ok_iff.mpr ⟨word, rfl, rfl⟩]
    rfl

/-- Calls read back all numbers that they match, one after another. -/
theorem Call.runAll_eq_ok {calls : List Call} {parts : List Numbers}
    (matched : List.Forall₂ Matches calls parts)
    (word : ∀ numbers ∈ parts, numbers.values.length * numbers.kind.width < Size.bound)
    (abandoned : Cursor.Abandoned) (rest : Bytes) :
    runAll abandoned calls (parts.flatMap Numbers.encode ++ rest) = (.ok parts, rest) := by
  induction matched with
  | nil => rfl
  | cons here _ inductionHypothesis =>
    obtain ⟨fits, others⟩ := List.forall_mem_cons.mp word
    rw [runAll, List.flatMap_cons, List.append_assoc, here.run_eq_ok fits]
    dsimp only
    rw [inductionHypothesis others]
    rfl

/-- The parts of short writes take no more bytes than any size. -/
theorem Write.parts_lt_bound {write : Write} (short : write.count < 0x80000000) :
    ∀ numbers ∈ write.parts,
      numbers.values.length * numbers.kind.width < Size.bound := by
  cases write with
  | one kind value => simpa [parts, count] using kind.mul_width_lt_bound short
  | slice kind values => simpa [parts, count] using kind.mul_width_lt_bound short
  | sized kind values =>
    have length : 1 * int32.width < Size.bound := int32.mul_width_lt_bound (by decide)
    simpa [parts, count] using ⟨length, kind.mul_width_lt_bound short⟩

end Reading

/-- Whatever numbers are written to a byte vector, in any mix of kinds and ways with fewer than
`2 ^ 31` numbers each, calls that match their parts read them back and leave what follows them.
The length of a sized slice is a part of its own, in front of the numbers. A counted read takes
exactly the bytes of its numbers, or it is invalid and takes none, be it that they are missing
or that their size is none. -/
theorem streams_roundTrip (abandoned : Cursor.Abandoned) :
    (∀ writes : List Write, (∀ write ∈ writes, write.count < 0x80000000) → ∀ before,
      ∃ stored, Write.runAll writes ⟨before, none⟩ = .ok ⟨before ++ stored, none⟩ ∧
        (∀ kind values, .sized kind values ∈ writes →
          (Int32.ofNat values.length).toInt = values.length) ∧
        ∀ calls, List.Forall₂ Call.Matches calls (writes.flatMap Write.parts) → ∀ rest,
          Call.runAll abandoned calls (stored ++ rest) = (.ok (writes.flatMap Write.parts), rest)) ∧
    (∀ (kind : Scalar) (count : Nat) (bytes : Bytes),
      if count * kind.width < Size.bound ∧ count * kind.width ≤ bytes.length then
        ∃ values, values.length = count ∧
          kind.encodeAll values = bytes.take (count * kind.width) ∧
          Cursor.readVector abandoned kind count bytes =
            (.ok values, bytes.drop (count * kind.width))
      else ∃ cause,
        Cursor.readVector abandoned kind count bytes = (.error (.invalid cause), bytes)) := by
  constructor
  · intro writes short before
    refine ⟨(writes.flatMap Write.parts).flatMap Numbers.encode, Write.runAll_eq_ok short before,
      ?_, ?_⟩
    · intro kind values member
      exact Int32.toInt_ofNat_of_lt (short _ member)
    · intro calls matched rest
      refine Call.runAll_eq_ok matched ?_ abandoned rest
      intro numbers member
      obtain ⟨write, listed, part⟩ := List.mem_flatMap.mp member
      exact Write.parts_lt_bound (short write listed) numbers part
  · intro kind count bytes
    rw [readVector_eq_leaving]
    split
    · next present =>
      obtain ⟨values, counted, front, read⟩ := kind.exists_readVector present.1 present.2
      exact ⟨values, counted, front, by rw [read]; rfl⟩
    · next refused =>
      obtain ⟨cause, failed⟩ := kind.readVector_invalid refused
      exact ⟨cause, by rw [failed]; rfl⟩

/-- A NaN with a payload, two numbers of 16 bits and three sized bytes, in front of another byte.
Reads that fail would leave nothing. -/
theorem streams_roundTrip_mixed :
    let writes : List Write :=
      [.one single 0x7FA00001, .slice half [0x7E01, 0xFC00], .sized uint8 [7, 8, 9]]
    let calls : List Call := [.one single, .vector half 2, .one int32, .slice uint8 3]
    let stored : Bytes := [1, 0, 0xA0, 0x7F, 1, 0x7E, 0, 0xFC, 3, 0, 0, 0, 7, 8, 9]
    (∀ write ∈ writes, write.count < 0x80000000) ∧
      List.Forall₂ Call.Matches calls (writes.flatMap Write.parts) ∧
      Write.runAll writes ⟨[], none⟩ = .ok ⟨stored, none⟩ ∧
      Call.runAll (fun _ _ => []) calls (stored ++ [42]) =
        (.ok [⟨single, [0x7FA00001]⟩, ⟨half, [0x7E01, 0xFC00]⟩, ⟨int32, [3]⟩, ⟨uint8, [7, 8, 9]⟩],
          [42]) := by
  intro writes calls stored
  have short : ∀ write ∈ writes, write.count < 0x80000000 := by
    simp [writes, Write.count]
  have matched : List.Forall₂ Call.Matches calls (writes.flatMap Write.parts) :=
    .cons (.one single 0x7FA00001) <| .cons (.vector half [0x7E01, 0xFC00]) <|
      .cons (.one int32 3) <| .cons (.slice uint8 [7, 8, 9]) .nil
  have written : Write.runAll writes ⟨[], none⟩ = .ok ⟨stored, none⟩ := rfl
  obtain ⟨found, same, -, readBack⟩ := (streams_roundTrip fun _ _ => []).1 writes short []
  rw [written, List.nil_append] at same
  have stores : stored = found := congrArg Writer.written (Except.ok.inj same)
  rw [← stores] at readBack
  exact ⟨short, matched, written, readBack calls matched [42]⟩

end Scalar

end PixelBlocks

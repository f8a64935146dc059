import PixelBlocks.Scalar.Stream
import PixelBlocks.Proofs.Outcome

/-!
# Numbers at the front of a byte string

What was written at the front of a byte string is read back, and what follows it is
left over.
-/

namespace PixelBlocks.Scalar

/-- Enough bytes can be split. -/
theorem takeBytes_of_le {count : Nat} {bytes : Bytes} (enough : count ≤ bytes.length) :
    takeBytes count bytes = .ok (bytes.take count, bytes.drop count) := by
  have full : ¬ (bytes.take count).length < count := by
    rw [List.length_take]
    omega
  exact if_neg full

/-- Bytes are split off again that were put in front of others. -/
theorem takeBytes_append {count : Nat} {front : Bytes} (sized : front.length = count)
    (rest : Bytes) : takeBytes count (front ++ rest) = .ok (front, rest) := by
  rw [takeBytes_of_le (by rw [List.length_append]; omega), List.take_left' sized,
    List.drop_left' sized]

/-- A number is read back that was put in front of other bytes. -/
theorem read_encode_append (kind : Scalar) (value : kind.Value) (rest : Bytes) :
    kind.read (kind.encode value ++ rest) = .ok (value, rest) := by
  rw [read, takeBytes_append (kind.length_encode value)]
  simp [kind.decode_encode value]

/-- Bytes are split exactly where they are put together again. -/
theorem takeBytes_eq_ok_iff {count : Nat} {bytes front rest : Bytes} :
    takeBytes count bytes = .ok (front, rest) ↔ front.length = count ∧ bytes = front ++ rest := by
  constructor
  · intro taken
    by_cases missing : (bytes.take count).length < count
    · rw [takeBytes, if_pos missing] at taken
      cases taken
    · rw [takeBytes, if_neg missing] at taken
      cases taken
      rw [List.length_take] at missing
      exact ⟨by rw [List.length_take]; omega, (List.take_append_drop count bytes).symm⟩
  · rintro ⟨sized, rfl⟩
    exact takeBytes_append sized rest

/-- The bits of a number are those it was made of, up to its width. -/
theorem bits_ofBits (kind : Scalar) (bits : Nat) :
    kind.bits (kind.ofBits bits) = bits % Nat.pow 256 kind.width := by
  cases kind <;> simp [Scalar.bits, ofBits, width]

/-- The bytes of a number are those it was read from. -/
theorem encode_decode (kind : Scalar) {front : Bytes} (sized : front.length = kind.width) :
    kind.encode (kind.decode front) = front := by
  have small := ofLittleEndian_lt front
  rw [sized] at small
  rw [encode, decode, bits_ofBits, Nat.mod_eq_of_lt small, ← sized, littleEndian_ofLittleEndian]

/-- A number is read exactly if its bytes stand in front. -/
theorem read_eq_ok_iff {kind : Scalar} {bytes rest : Bytes} {value : kind.Value} :
    kind.read bytes = .ok (value, rest) ↔ bytes = kind.encode value ++ rest := by
  constructor
  · intro found
    obtain ⟨⟨front, behind⟩, taken, same⟩ := Outcome.bind_eq_ok_iff.mp found
    cases same
    obtain ⟨sized, joined⟩ := takeBytes_eq_ok_iff.mp taken
    rw [encode_decode kind sized, joined]
  · rintro rfl
    exact read_encode_append kind value rest

/-- A byte is stored as it is. -/
theorem encode_uint8 (byte : UInt8) : uint8.encode byte = [byte] := by
  simp [encode, bits, width, littleEndian]

/-- Bytes are stored as they are. -/
theorem encodeAll_uint8 (bytes : Bytes) : uint8.encodeAll bytes = bytes := by
  induction bytes with
  | nil => rfl
  | cons byte rest inductionHypothesis =>
    rw [encodeAll, List.flatMap_cons, encode_uint8]
    exact congrArg (byte :: ·) inductionHypothesis

/-- Numbers one after another take the width of their kind each. -/
@[simp] theorem length_encodeAll (kind : Scalar) (values : List kind.Value) :
    (kind.encodeAll values).length = values.length * kind.width := by
  induction values with
  | nil => simp [encodeAll]
  | cons value rest inductionHypothesis =>
    have behind : (kind.encodeAll (value :: rest)).length =
        kind.width + (kind.encodeAll rest).length := by
      simp [encodeAll]
    rw [behind, inductionHypothesis, List.length_cons, Nat.succ_mul, Nat.add_comm]

/-- Numbers are read one after another exactly if their bytes stand in front in this order. -/
theorem readSlice_eq_ok_iff {kind : Scalar} {count : Nat} {bytes rest : Bytes}
    {values : List kind.Value} :
    kind.readSlice count bytes = .ok (values, rest) ↔
      values.length = count ∧ bytes = kind.encodeAll values ++ rest := by
  constructor
  · intro found
    induction count generalizing bytes values with
    | zero =>
      cases found
      exact ⟨rfl, rfl⟩
    | succ count inductionHypothesis =>
      obtain ⟨⟨first, behind⟩, here, found⟩ := Outcome.bind_eq_ok_iff.mp found
      obtain ⟨⟨others, left⟩, later, same⟩ := Outcome.bind_eq_ok_iff.mp found
      cases same
      obtain ⟨counted, rfl⟩ := inductionHypothesis later
      rw [read_eq_ok_iff] at here
      exact ⟨congrArg (· + 1) counted, here.trans (List.append_assoc _ _ _).symm⟩
  · rintro ⟨rfl, rfl⟩
    induction values with
    | nil => rfl
    | cons first others inductionHypothesis =>
      have front : kind.encodeAll (first :: others) ++ rest =
          kind.encode first ++ (kind.encodeAll others ++ rest) := List.append_assoc _ _ _
      rw [List.length_cons, readSlice, front, read_encode_append, Outcome.ok_bind]
      dsimp only
      rw [inductionHypothesis]
      rfl

/-- Counted numbers are read exactly if they are in front and take no more bytes than any size
can count. -/
theorem readVector_eq_ok_iff {kind : Scalar} {count : Nat} {bytes rest : Bytes}
    {values : List kind.Value} :
    kind.readVector count bytes = .ok (values, rest) ↔
      count * kind.width < Size.bound ∧ values.length = count ∧
        bytes = kind.encodeAll values ++ rest := by
  rw [readVector]
  constructor
  · intro found
    split at found
    · cases found
    · next needed product =>
      obtain ⟨-, found⟩ := Outcome.guard_eq_ok_iff.mp found
      exact ⟨(Size.mul?_eq_some_iff.mp product).1, readSlice_eq_ok_iff.mp found⟩
  · rintro ⟨word, rfl, rfl⟩
    have enough : ¬ (kind.encodeAll values ++ rest).length < values.length * kind.width := by
      rw [List.length_append, length_encodeAll]
      omega
    rw [Size.mul?_eq_some_iff.mpr ⟨word, rfl⟩]
    dsimp only
    rw [if_neg enough, readSlice_eq_ok_iff.mpr ⟨rfl, rfl⟩]

/-- One byte is read from the front. -/
theorem read_byte (byte : UInt8) (rest : Bytes) :
    uint8.read ([byte] ++ rest) = .ok (byte, rest) := by
  rw [← encode_uint8]
  exact read_encode_append .uint8 byte rest

end PixelBlocks.Scalar

import PixelBlocks.Bytes

/-!
# Stored numbers

Seven kinds of numbers are stored in byte strings, all with the least
significant byte first. Floating-point numbers are stored as their bits and stay
bits here, so payloads of NaNs survive.
-/

namespace PixelBlocks

/-- The digits of a number to the base 256, lowest first, cut to a width. -/
def littleEndian : (width : Nat) → (value : Nat) → Bytes
  | 0, _ => []
  | width + 1, value => value.toUInt8 :: littleEndian width (value / 256)

/-- The number with the given digits to the base 256, lowest first. -/
def ofLittleEndian : Bytes → Nat
  | [] => 0
  | byte :: rest => byte.toNat + 256 * ofLittleEndian rest

/-- The digits of a cut number number exactly the width. -/
@[simp] theorem length_littleEndian (width value : Nat) :
    (littleEndian width value).length = width := by
  induction width generalizing value with
  | zero => rfl
  | succ width inductionHypothesis => simp [littleEndian, inductionHypothesis]

/-- Digits give back the number up to the cut. -/
theorem ofLittleEndian_littleEndian (width value : Nat) :
    ofLittleEndian (littleEndian width value) = value % Nat.pow 256 width := by
  induction width generalizing value with
  | zero => exact (Nat.mod_one value).symm
  | succ width inductionHypothesis =>
    have byte : value.toUInt8.toNat = value % 256 := by
      simp [Nat.toUInt8, UInt8.toNat_ofNat']
    rw [littleEndian, ofLittleEndian, inductionHypothesis, byte]
    exact (Nat.mul_comm 256 (Nat.pow 256 width) ▸ Nat.mod_mul).symm

/-- A number made of digits is below the power that their count allows. -/
theorem ofLittleEndian_lt (bytes : Bytes) : ofLittleEndian bytes < Nat.pow 256 bytes.length := by
  induction bytes with
  | nil => exact Nat.one_pos
  | cons byte rest inductionHypothesis =>
    have small := byte.toNat_lt
    have step : Nat.pow 256 (rest.length + 1) = Nat.pow 256 rest.length * 256 := rfl
    rw [ofLittleEndian, List.length_cons, step]
    omega

/-- Digits are the digits of the number they make. -/
theorem littleEndian_ofLittleEndian (bytes : Bytes) :
    littleEndian bytes.length (ofLittleEndian bytes) = bytes := by
  induction bytes with
  | nil => rfl
  | cons byte rest inductionHypothesis =>
    have small := byte.toNat_lt
    have quotient : (byte.toNat + 256 * ofLittleEndian rest) / 256 = ofLittleEndian rest := by
      omega
    have digit : (byte.toNat + 256 * ofLittleEndian rest).toUInt8 = byte := by
      apply UInt8.toNat_inj.mp
      simp only [Nat.toUInt8, UInt8.toNat_ofNat']
      omega
    rw [List.length_cons, ofLittleEndian, littleEndian, quotient, digit, inductionHypothesis]

/-- The kinds of numbers that streams hold. -/
inductive Scalar
  | uint8
  | uint16
  | uint32
  | int32
  | uint64
  /-- The bits of a floating-point number of 32 bits. -/
  | single
  /-- The bits of a floating-point number of 16 bits. -/
  | half
  deriving DecidableEq, Repr, Inhabited

namespace Scalar

/-- The machine word that holds a number of this kind. -/
@[reducible] def Value : Scalar → Type
  | uint8 => UInt8
  | uint16 => UInt16
  | uint32 => UInt32
  | int32 => Int32
  | uint64 => UInt64
  | single => UInt32
  | half => UInt16

/-- How many bytes a number of this kind takes. -/
def width : Scalar → Nat
  | uint8 => 1
  | uint16 => 2
  | uint32 => 4
  | int32 => 4
  | uint64 => 8
  | single => 4
  | half => 2

/-- The bits of a number, read as a natural number. -/
def bits : (kind : Scalar) → kind.Value → Nat
  | uint8, value => UInt8.toNat value
  | uint16, value => UInt16.toNat value
  | uint32, value => UInt32.toNat value
  | int32, value => (Int32.toUInt32 value).toNat
  | uint64, value => UInt64.toNat value
  | single, value => UInt32.toNat value
  | half, value => UInt16.toNat value

/-- The number with the given bits, of which the lowest are used. -/
def ofBits : (kind : Scalar) → Nat → kind.Value
  | uint8, bits => UInt8.ofNat bits
  | uint16, bits => UInt16.ofNat bits
  | uint32, bits => UInt32.ofNat bits
  | int32, bits => (UInt32.ofNat bits).toInt32
  | uint64, bits => UInt64.ofNat bits
  | single, bits => UInt32.ofNat bits
  | half, bits => UInt16.ofNat bits

/-- The bytes of a number. -/
def encode (kind : Scalar) (value : kind.Value) : Bytes :=
  littleEndian kind.width (kind.bits value)

/-- The number that a byte string of the right width spells. -/
def decode (kind : Scalar) (bytes : Bytes) : kind.Value :=
  kind.ofBits (ofLittleEndian bytes)

/-- The bits fill no more than the width. -/
theorem bits_lt (kind : Scalar) (value : kind.Value) : kind.bits value < Nat.pow 256 kind.width := by
  cases kind
  · exact UInt8.toNat_lt value
  · exact UInt16.toNat_lt value
  · exact UInt32.toNat_lt value
  · exact UInt32.toNat_lt (Int32.toUInt32 value)
  · exact UInt64.toNat_lt value
  · exact UInt32.toNat_lt value
  · exact UInt16.toNat_lt value

/-- A number is given by its bits. -/
theorem ofBits_bits (kind : Scalar) (value : kind.Value) : kind.ofBits (kind.bits value) = value := by
  cases kind
  · exact UInt8.ofNat_toNat
  · exact UInt16.ofNat_toNat
  · exact UInt32.ofNat_toNat
  · simp [ofBits, bits]
  · exact UInt64.ofNat_toNat
  · exact UInt32.ofNat_toNat
  · exact UInt16.ofNat_toNat

/-- Encoded numbers take the width of their kind. -/
@[simp] theorem length_encode (kind : Scalar) (value : kind.Value) :
    (kind.encode value).length = kind.width := by
  simp [encode]

/-- Numbers are read back as they were written. -/
theorem decode_encode (kind : Scalar) (value : kind.Value) :
    kind.decode (kind.encode value) = value := by
  rw [decode, encode, ofLittleEndian_littleEndian, Nat.mod_eq_of_lt (kind.bits_lt value),
    ofBits_bits]

end Scalar

end PixelBlocks

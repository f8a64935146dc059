import PixelBlocks.Scalar
import PixelBlocks.Fault

/-!
# Reading and writing numbers

Reading takes numbers from the front of a byte string and leaves the rest.
Writing appends to what was written before, unless the writer has a capacity
that would be exceeded.
-/

namespace PixelBlocks.Scalar

/-- Splits off the given number of bytes. -/
def takeBytes (count : Nat) (bytes : Bytes) : Outcome (Bytes × Bytes) :=
  let front := bytes.take count
  if front.length < count then .error (.invalid .missingBytes)
  else .ok (front, bytes.drop count)

/-- Reads one number. -/
def read (kind : Scalar) (bytes : Bytes) : Outcome (kind.Value × Bytes) := do
  let (front, rest) ← takeBytes kind.width bytes
  return (kind.decode front, rest)

/-- Reads one number after another. -/
def readSlice (kind : Scalar) : (count : Nat) → Bytes → Outcome (List kind.Value × Bytes)
  | 0, bytes => .ok ([], bytes)
  | count + 1, bytes => do
    let (first, bytes) ← kind.read bytes
    let (others, bytes) ← readSlice kind count bytes
    return (first :: others, bytes)

/-- Reads as many numbers as asked for, after checking that enough bytes are
    left, so that a corrupt count asks for no memory. -/
def readVector (kind : Scalar) (count : Nat) (bytes : Bytes) :
    Outcome (List kind.Value × Bytes) :=
  match Size.mul? count kind.width with
  | none => .error (.invalid .valueCount)
  | some needed =>
    if bytes.length < needed then .error (.invalid .missingBytes)
    else kind.readSlice count bytes

/-- The bytes of numbers one after another. -/
def encodeAll (kind : Scalar) (values : List kind.Value) : Bytes :=
  values.flatMap kind.encode

/-- The bytes of numbers after their count as a signed 32-bit number. -/
def encodeSized (kind : Scalar) (values : List kind.Value) : Outcome Bytes :=
  if 0x80000000 ≤ values.length then .error (.encoding .countTooLarge)
  else .ok (int32.encode (Int32.ofNat values.length) ++ kind.encodeAll values)

end PixelBlocks.Scalar

namespace PixelBlocks

/-- A destination of bytes, which may have a limited capacity. -/
structure Writer where
  written : Bytes
  capacity : Option Nat
  deriving Repr, Inhabited

namespace Writer

/-- Appends bytes, all of them or none. -/
def append (writer : Writer) (bytes : Bytes) : Outcome Writer :=
  let written := writer.written ++ bytes
  match writer.capacity with
  | none => .ok { writer with written }
  | some capacity =>
    if capacity < written.length then .error .fullWriter else .ok { writer with written }

/-- Appends one number. -/
def write (writer : Writer) (kind : Scalar) (value : kind.Value) : Outcome Writer :=
  writer.append (kind.encode value)

/-- Appends numbers one after another. -/
def writeSlice (writer : Writer) (kind : Scalar) (values : List kind.Value) : Outcome Writer :=
  writer.append (kind.encodeAll values)

/-- Appends the count of the numbers and then the numbers. -/
def writeSized (writer : Writer) (kind : Scalar) (values : List kind.Value) :
    Outcome Writer := do
  let bytes ← kind.encodeSized values
  writer.append bytes

end Writer

end PixelBlocks

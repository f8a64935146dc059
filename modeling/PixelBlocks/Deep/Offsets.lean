import PixelBlocks.Scalar.Stream

/-!
# Offset tables of deep blocks

An offset table holds, for each pixel, the number of samples of this pixel and
all pixels before it. Such numbers never decrease and are never negative, and the
last one is the number of samples of the block.
-/

namespace PixelBlocks.Offsets

/-- The last offset, if no offset is below the one before it. -/
def totalFrom : (previous : Int32) → List Int32 → Outcome Int32
  | previous, [] => .ok previous
  | previous, offset :: rest =>
    if offset < previous then .error (.invalid .offsetsDecrease) else totalFrom offset rest

/-- The number of samples of a block. -/
def total (offsets : List Int32) : Outcome Nat := do
  let last ← totalFrom 0 offsets
  return last.toInt.toNat

/-- The stored form of an offset table. -/
def encode (offsets : List Int32) : Bytes :=
  Scalar.int32.encodeAll offsets

/-- Reads as many offsets as asked for and checks them. -/
def decode (count : Nat) (table : Bytes) : Outcome (List Int32) := do
  let (offsets, _) ← Scalar.int32.readVector count table
  let _ ← total offsets
  return offsets

-- Offsets may repeat.
example : total [3, 8, 8, 10] = .ok 10 := rfl

-- The first offset may not be negative.
example : total [-1] = .error (.invalid .offsetsDecrease) := rfl

end PixelBlocks.Offsets

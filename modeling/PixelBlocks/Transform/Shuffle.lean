import PixelBlocks.Bytes

/-!
# Shuffling of sample bytes

The first bytes of all samples come first, then the second bytes of all samples,
and so on. Bytes at the end that do not fill a sample stay at the end.
-/

namespace PixelBlocks.Shuffle

/-- How many whole samples of a size a byte string holds. -/
def sampleCount (typeSize : Nat) (bytes : Bytes) : Nat :=
  bytes.length / typeSize

/-- The bytes at one place within each of the first samples. -/
def plane (table : Array UInt8) (typeSize count place : Nat) : Bytes :=
  (List.range count).map fun sample => table.getD (sample * typeSize + place) 0

/-- Groups the bytes by their place within a sample. -/
def shuffle (typeSize : Nat) (bytes : Bytes) : Bytes :=
  if typeSize < 2 then bytes
  else
    let count := sampleCount typeSize bytes
    let table := bytes.toArray
    ((List.range typeSize).flatMap fun place => plane table typeSize count place)
      ++ bytes.drop (count * typeSize)

/-- The bytes of one sample, one from each plane. -/
def sample (table : Array UInt8) (typeSize count index : Nat) : Bytes :=
  (List.range typeSize).map fun place => table.getD (place * count + index) 0

/-- Puts the bytes of each sample next to each other again. -/
def unshuffle (typeSize : Nat) (bytes : Bytes) : Bytes :=
  if typeSize < 2 then bytes
  else
    let count := sampleCount typeSize bytes
    let table := bytes.toArray
    ((List.range count).flatMap fun index => sample table typeSize count index)
      ++ bytes.drop (count * typeSize)

-- Two samples of four bytes and three bytes left over.
example :
    shuffle 4 [1, 2, 3, 4, 5, 6, 7, 8, 9, 10, 11] = [1, 5, 2, 6, 3, 7, 4, 8, 9, 10, 11] := by
  decide

-- Fewer bytes than one sample stay as they are.
example : unshuffle 4 [1, 2, 3] = [1, 2, 3] := by decide

end PixelBlocks.Shuffle

import PixelBlocks.Transform.Shuffle
import PixelBlocks.Proofs.Rows

/-!
# Shuffling can be undone

Shuffling writes a table of samples column by column, and unshuffling reads it so.
Both leave the bytes alone that do not fill a sample, and each undoes the other.
-/

namespace PixelBlocks.Shuffle

/-- The bytes of all planes. -/
def planes (typeSize : Nat) (bytes : Bytes) : Bytes :=
  (List.range typeSize).flatMap fun place =>
    plane bytes.toArray typeSize (sampleCount typeSize bytes) place

/-- The bytes of all samples, taken from planes. -/
def samples (typeSize : Nat) (bytes : Bytes) : Bytes :=
  (List.range (sampleCount typeSize bytes)).flatMap fun index =>
    sample bytes.toArray typeSize (sampleCount typeSize bytes) index

/-- Shuffled bytes are the planes of the samples and the bytes behind the samples. -/
theorem shuffle_eq_planes {typeSize : Nat} (wide : ¬ typeSize < 2) (bytes : Bytes) :
    shuffle typeSize bytes =
      planes typeSize bytes ++ bytes.drop (sampleCount typeSize bytes * typeSize) := by
  rw [shuffle, if_neg wide]
  rfl

/-- Unshuffled bytes are the samples of the planes and the bytes behind the planes. -/
theorem unshuffle_eq_samples {typeSize : Nat} (wide : ¬ typeSize < 2) (bytes : Bytes) :
    unshuffle typeSize bytes =
      samples typeSize bytes ++ bytes.drop (sampleCount typeSize bytes * typeSize) := by
  rw [unshuffle, if_neg wide]
  rfl

/-- A plane has one byte of every sample. -/
@[simp] theorem length_plane (table : Array UInt8) (typeSize count place : Nat) :
    (plane table typeSize count place).length = count := by
  simp [plane]

/-- A sample has as many bytes as its type asks for. -/
@[simp] theorem length_sample (table : Array UInt8) (typeSize count index : Nat) :
    (sample table typeSize count index).length = typeSize := by
  simp [sample]

/-- The planes hold as many bytes as the samples. -/
theorem length_planes (typeSize : Nat) (bytes : Bytes) :
    (planes typeSize bytes).length = sampleCount typeSize bytes * typeSize := by
  rw [planes, Rows.length_flatMap (length_plane _ _ _), Nat.mul_comm]

/-- The samples hold as many bytes as the planes. -/
theorem length_samples (typeSize : Nat) (bytes : Bytes) :
    (samples typeSize bytes).length = sampleCount typeSize bytes * typeSize := by
  rw [samples, Rows.length_flatMap (length_sample _ _ _)]

/-- The samples are part of the bytes. -/
theorem sampleCount_mul_le (typeSize : Nat) (bytes : Bytes) :
    sampleCount typeSize bytes * typeSize ≤ bytes.length :=
  Nat.div_mul_le_self bytes.length typeSize

/-- The samples in front of the other bytes. -/
theorem length_take_samples (typeSize : Nat) (bytes : Bytes) :
    (bytes.take (sampleCount typeSize bytes * typeSize)).length =
      sampleCount typeSize bytes * typeSize := by
  rw [List.length_take, Nat.min_eq_left (sampleCount_mul_le typeSize bytes)]

/-- A plane has bytes of whole samples only. -/
theorem plane_take {typeSize place : Nat} (bytes : Bytes) (inside : place < typeSize) :
    plane (bytes.take (sampleCount typeSize bytes * typeSize)).toArray typeSize
        (sampleCount typeSize bytes) place =
      plane bytes.toArray typeSize (sampleCount typeSize bytes) place := by
  apply List.map_congr_left
  intro index counted
  have present := Rows.place_lt (List.mem_range.mp counted) inside
  simp [Array.getD_eq_getD_getElem?, List.getElem?_take_of_lt present]

/-- Shuffling keeps the number of bytes. -/
@[simp] theorem length_shuffle (typeSize : Nat) (bytes : Bytes) :
    (shuffle typeSize bytes).length = bytes.length := by
  by_cases narrow : typeSize < 2
  · rw [shuffle, if_pos narrow]
  · have inside := sampleCount_mul_le typeSize bytes
    rw [shuffle_eq_planes narrow, List.length_append, length_planes, List.length_drop]
    omega

/-- Unshuffling keeps the number of bytes, also where no bytes were shuffled. -/
@[simp] theorem length_unshuffle (typeSize : Nat) (bytes : Bytes) :
    (unshuffle typeSize bytes).length = bytes.length := by
  by_cases narrow : typeSize < 2
  · rw [unshuffle, if_pos narrow]
  · have inside := sampleCount_mul_le typeSize bytes
    rw [unshuffle_eq_samples narrow, List.length_append, length_samples, List.length_drop]
    omega

section Places

variable {typeSize place index : Nat} (wide : ¬ typeSize < 2) (bytes : Bytes)
variable (inside : place < typeSize) (counted : index < sampleCount typeSize bytes)

include inside counted

/-- The place of a byte in its sample lies within the bytes. -/
theorem sample_place_lt : index * typeSize + place < bytes.length :=
  Nat.lt_of_lt_of_le (Rows.place_lt counted inside) (sampleCount_mul_le typeSize bytes)

/-- The place of a byte in its plane lies within the bytes. -/
theorem plane_place_lt : place * sampleCount typeSize bytes + index < bytes.length := by
  have whole := sampleCount_mul_le typeSize bytes
  rw [Nat.mul_comm] at whole
  exact Nat.lt_of_lt_of_le (Rows.place_lt inside counted) whole

include wide

/-- The byte of a sample at a place lies in the plane of that place. -/
theorem getElem?_shuffle :
    (shuffle typeSize bytes)[place * sampleCount typeSize bytes + index]? =
      bytes[index * typeSize + place]? := by
  have found : (planes typeSize bytes)[place * sampleCount typeSize bytes + index]? =
      some (bytes.toArray.getD (index * typeSize + place) 0) := by
    rw [planes, Rows.getElem?_flatMap (length_plane _ _ _) inside counted, plane]
    simp [counted]
  have stored := sample_place_lt bytes inside counted
  have present := (List.getElem?_eq_some_iff.mp found).1
  rw [shuffle_eq_planes wide, List.getElem?_append_left present, found]
  simp [stored]

/-- The byte of a plane goes to its place in the sample. -/
theorem getElem?_unshuffle :
    (unshuffle typeSize bytes)[index * typeSize + place]? =
      bytes[place * sampleCount typeSize bytes + index]? := by
  have found : (samples typeSize bytes)[index * typeSize + place]? =
      some (bytes.toArray.getD (place * sampleCount typeSize bytes + index) 0) := by
    rw [samples, Rows.getElem?_flatMap (length_sample _ _ _) counted inside, sample]
    simp [inside]
  have stored := plane_place_lt bytes inside counted
  have present := (List.getElem?_eq_some_iff.mp found).1
  rw [unshuffle_eq_samples wide, List.getElem?_append_left present, found]
  simp [stored]

end Places

/-- Unshuffling puts back every byte that shuffling moved, whether or not the
samples fill the whole byte string. -/
@[simp] theorem unshuffle_shuffle (typeSize : Nat) (bytes : Bytes) :
    unshuffle typeSize (shuffle typeSize bytes) = bytes := by
  by_cases narrow : typeSize < 2
  · rw [unshuffle, if_pos narrow, shuffle, if_pos narrow]
  · have sameCount :
        sampleCount typeSize (shuffle typeSize bytes) = sampleCount typeSize bytes := by
      rw [sampleCount, length_shuffle, sampleCount]
    have front : samples typeSize (shuffle typeSize bytes) =
        bytes.take (sampleCount typeSize bytes * typeSize) := by
      rw [samples, sameCount]
      apply Rows.flatMap_eq (length_sample _ _ _)
      · exact length_take_samples typeSize bytes
      · intro index place counted inside
        have stored := sample_place_lt bytes inside counted
        have moved := getElem?_shuffle narrow bytes inside counted
        rw [List.getElem?_eq_getElem stored] at moved
        rw [List.getElem?_take_of_lt (Rows.place_lt counted inside),
          List.getElem?_eq_getElem stored]
        simp [sample, inside, moved]
    have behind : (shuffle typeSize bytes).drop (sampleCount typeSize bytes * typeSize) =
        bytes.drop (sampleCount typeSize bytes * typeSize) := by
      rw [shuffle_eq_planes narrow, ← length_planes, List.drop_left]
    rw [unshuffle_eq_samples narrow, sameCount, front, behind, List.take_append_drop]

/-- Shuffling moves every byte back to where unshuffling took it from, so every byte string
is a shuffled one. -/
@[simp] theorem shuffle_unshuffle (typeSize : Nat) (bytes : Bytes) :
    shuffle typeSize (unshuffle typeSize bytes) = bytes := by
  by_cases narrow : typeSize < 2
  · rw [shuffle, if_pos narrow, unshuffle, if_pos narrow]
  · have sameCount :
        sampleCount typeSize (unshuffle typeSize bytes) = sampleCount typeSize bytes := by
      rw [sampleCount, length_unshuffle, sampleCount]
    have front : planes typeSize (unshuffle typeSize bytes) =
        bytes.take (sampleCount typeSize bytes * typeSize) := by
      rw [planes, sameCount]
      apply Rows.flatMap_eq (length_plane _ _ _)
      · rw [length_take_samples, Nat.mul_comm]
      · intro place index inside counted
        have before := Rows.place_lt inside counted
        rw [Nat.mul_comm typeSize] at before
        have stored := plane_place_lt bytes inside counted
        have moved := getElem?_unshuffle narrow bytes inside counted
        rw [List.getElem?_eq_getElem stored] at moved
        rw [List.getElem?_take_of_lt before, List.getElem?_eq_getElem stored]
        simp [plane, counted, moved]
    have behind : (unshuffle typeSize bytes).drop (sampleCount typeSize bytes * typeSize) =
        bytes.drop (sampleCount typeSize bytes * typeSize) := by
      rw [unshuffle_eq_samples narrow, ← length_samples, List.drop_left]
    rw [shuffle_eq_planes narrow, sameCount, front, behind, List.take_append_drop]

end PixelBlocks.Shuffle

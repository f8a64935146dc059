import PixelBlocks.Proofs.Checked
import PixelBlocks.Proofs.Transform.Shuffle

/-!
# Planes are stored byte by byte

Shuffling is undone by storing plane after plane into a table of zeros, each byte at its place
in its sample. Whatever is stored so far, the next byte has a place of its own within the
table. So the table holds all samples in the end, and the bytes that do not fill a sample are
copied behind them.
-/

namespace PixelBlocks.Checked

open PixelBlocks.Shuffle

/-- Stores the bytes of a plane at its place in the samples, from a sample on, in steps that are
checked. -/
def storePlane (typeSize place : Nat) : (index : Nat) → Bytes → Array UInt8 → Checked (Array UInt8)
  | _, [], table => .ok table
  | index, byte :: rest, table => do
    let start ← placeWithin table (index * typeSize)
    let target ← placeWithin table (start + place)
    let changed ← store table target byte
    storePlane typeSize place (index + 1) rest changed

/-- Stores the given number of planes one after another, in steps that are checked. -/
def storePlanes (typeSize count : Nat) (planes : Bytes) (done : Nat) (table : Array UInt8) :
    Checked (Array UInt8) :=
  (List.range done).foldlM
    (fun table place =>
      storePlane typeSize place 0 ((planes.drop (place * count)).take count) table) table

/-- Puts the bytes of each sample next to each other again, by storing plane after plane into a
table of zeros, in steps that are checked. -/
def restoreSamples (typeSize : Nat) (bytes : Bytes) : Checked Bytes := do
  let count ← ratio bytes.length (max typeSize 1)
  if typeSize < 2 ∨ count = 0 then return bytes
  else do
    let whole ← placeWithin bytes.toArray (count * typeSize)
    let (planes, rest) ← cut whole bytes
    let planeCount ← ratio planes.length count
    let table ← storePlanes typeSize count planes planeCount (Array.replicate bytes.length 0)
    let (samples, zeros) ← cut planes.length table.toList
    let tail ← overwrite zeros rest
    return samples ++ tail

/-- A table in which the planes before one are stored, and of that one the bytes of the first
samples. -/
structure Holds (typeSize count : Nat) (planes : Bytes) (done stop : Nat) (table : Array UInt8) :
    Prop where
  room : count * typeSize ≤ table.size
  stored : ∀ place index, place < typeSize → index < count →
    place < done ∨ place = done ∧ index < stop →
      table[index * typeSize + place]? = planes[place * count + index]?

section Filling

variable {typeSize count done stop : Nat} {planes : Bytes} {table : Array UInt8}

/-- Storing the next byte of a plane leaves the others where they are. -/
theorem Holds.store (holds : Holds typeSize count planes done stop table) {byte : UInt8}
    (within : done < typeSize) (counted : stop < count)
    (next : planes[done * count + stop]? = some byte) :
    Holds typeSize count planes done (stop + 1)
      (table.setIfInBounds (stop * typeSize + done) byte) where
  room := by
    rw [Array.size_setIfInBounds]
    exact holds.room
  stored := by
    intro place index inside present earlier
    have target := Nat.lt_of_lt_of_le (Rows.place_lt counted within) holds.room
    by_cases same : index * typeSize + place = stop * typeSize + done
    · obtain ⟨rfl, rfl⟩ := Rows.place_inj inside within same
      rw [Array.getElem?_setIfInBounds_self_of_lt target, next]
    · rw [Array.getElem?_setIfInBounds_ne (Ne.symm same)]
      refine holds.stored place index inside present ?_
      rcases earlier with before | ⟨rfl, known⟩
      · exact .inl before
      · have other : index ≠ stop := by
          rintro rfl
          exact same rfl
        exact .inr ⟨rfl, by omega⟩

/-- A whole plane is stored within the table. The induction is on the bytes that are left. -/
theorem exists_storePlane (holds : Holds typeSize count planes done stop table)
    (within : done < typeSize) {values : Bytes} (ends : stop + values.length = count)
    (follow : ∀ later < values.length,
      values[later]? = planes[done * count + (stop + later)]?) :
    ∃ filled, storePlane typeSize done stop values table = .ok filled ∧
      filled.size = table.size ∧ Holds typeSize count planes (done + 1) 0 filled := by
  induction values generalizing stop table with
  | nil =>
    refine ⟨table, rfl, rfl, holds.room, ?_⟩
    intro place index inside present earlier
    refine holds.stored place index inside present ?_
    simp only [List.length_nil] at ends
    omega
  | cons byte rest inductionHypothesis =>
    rw [List.length_cons] at ends
    have counted : stop < count := by omega
    have target := Nat.lt_of_lt_of_le (Rows.place_lt counted within) holds.room
    have next : planes[done * count + stop]? = some byte := (follow 0 (Nat.succ_pos _)).symm
    have behind : ∀ later < rest.length,
        rest[later]? = planes[done * count + (stop + 1 + later)]? := by
      intro later present
      have moved := follow (later + 1) (Nat.succ_lt_succ present)
      rwa [List.getElem?_cons_succ, ← Nat.add_assoc stop, Nat.add_right_comm stop] at moved
    obtain ⟨filled, succeeds, sized, held⟩ :=
      inductionHypothesis (holds.store within counted next) (by omega) behind
    refine ⟨filled, ?_, sized.trans Array.size_setIfInBounds, held⟩
    rw [storePlane, placeWithin_eq_ok (by omega), Outcome.ok_bind, placeWithin_eq_ok (by omega),
      Outcome.ok_bind, Checked.store, if_pos target, Outcome.ok_bind, succeeds]

/-- The next plane is stored within the table, behind those before it. -/
theorem exists_storeNext (holds : Holds typeSize count planes done 0 table)
    (within : done < typeSize) (whole : planes.length = count * typeSize) :
    ∃ filled,
      storePlane typeSize done 0 ((planes.drop (done * count)).take count) table = .ok filled ∧
      filled.size = table.size ∧ Holds typeSize count planes (done + 1) 0 filled := by
  have rows := Nat.mul_le_mul_right count within
  rw [Nat.succ_mul, Nat.mul_comm typeSize, ← whole] at rows
  have length : ((planes.drop (done * count)).take count).length = count := by
    rw [List.length_take, List.length_drop]
    omega
  refine exists_storePlane holds within (by rw [length, Nat.zero_add]) fun later counted => ?_
  rw [length] at counted
  rw [List.getElem?_take_of_lt counted, List.getElem?_drop, Nat.zero_add]

/-- As many planes as a sample has bytes are stored within the table. The induction is on the
planes that are stored already. -/
theorem exists_storePlanes (whole : planes.length = count * typeSize)
    (room : count * typeSize ≤ table.size) (least : done ≤ typeSize) :
    ∃ filled, storePlanes typeSize count planes done table = .ok filled ∧
      filled.size = table.size ∧ Holds typeSize count planes done 0 filled := by
  induction done with
  | zero =>
    refine ⟨table, rfl, rfl, room, ?_⟩
    intro place index _ _ earlier
    omega
  | succ done inductionHypothesis =>
    obtain ⟨before, succeeds, sized, holds⟩ := inductionHypothesis (Nat.le_of_succ_le least)
    obtain ⟨filled, stored, same, held⟩ := exists_storeNext holds least whole
    refine ⟨filled, ?_, same.trans sized, held⟩
    rw [storePlanes] at succeeds
    rw [storePlanes, List.range_succ, List.foldlM_append, succeeds, Outcome.ok_bind,
      List.foldlM_cons, stored]
    rfl

end Filling

/-- A table that holds all planes starts with the samples. -/
theorem Holds.samples_eq {typeSize : Nat} {bytes : Bytes} {table : Array UInt8}
    (holds : Holds typeSize (sampleCount typeSize bytes)
      (bytes.take (sampleCount typeSize bytes * typeSize)) typeSize 0 table) :
    samples typeSize bytes = table.toList.take (sampleCount typeSize bytes * typeSize) := by
  apply Rows.flatMap_eq (length_sample _ _ _)
  · rw [List.length_take, Array.length_toList, Nat.min_eq_left holds.room]
  · intro index place counted inside
    have stored := holds.stored place index inside counted (.inl inside)
    have present := Rows.place_lt inside counted
    rw [Nat.mul_comm typeSize] at present
    have given := plane_place_lt bytes inside counted
    rw [List.getElem?_take_of_lt present, List.getElem?_eq_getElem given,
      ← Array.getElem?_toList] at stored
    rw [List.getElem?_take_of_lt (Rows.place_lt counted inside), stored]
    simp [sample, inside, given]

/-- Samples are put together again within a table as large as the bytes. -/
theorem restoreSamples_eq_ok (typeSize : Nat) (bytes : Bytes) :
    restoreSamples typeSize bytes = .ok (Shuffle.unshuffle typeSize bytes) := by
  rw [restoreSamples, ratio_eq_ok (by omega), Outcome.ok_bind]
  by_cases narrow : typeSize < 2
  · rw [if_pos (.inl narrow), Shuffle.unshuffle, if_pos narrow]
    rfl
  · have count : bytes.length / max typeSize 1 = sampleCount typeSize bytes := by
      rw [sampleCount, Nat.max_eq_left (by omega)]
    rw [count]
    by_cases few : sampleCount typeSize bytes = 0
    · rw [if_pos (.inr few), unshuffle_eq_samples narrow, samples, few, Nat.zero_mul]
      rfl
    · have inside := sampleCount_mul_le typeSize bytes
      have front := length_take_samples typeSize bytes
      have room : sampleCount typeSize bytes * typeSize ≤
          (Array.replicate bytes.length (0 : UInt8)).size := by
        rwa [Array.size_replicate]
      obtain ⟨filled, succeeds, sized, holds⟩ :=
        exists_storePlanes front room (Nat.le_refl typeSize)
      rw [Array.size_replicate, ← Array.length_toList] at sized
      have behind : (filled.toList.drop (sampleCount typeSize bytes * typeSize)).length =
          (bytes.drop (sampleCount typeSize bytes * typeSize)).length := by
        rw [List.length_drop, List.length_drop, sized]
      rw [if_neg (by omega), placeWithin_eq_ok (Nat.le_succ_of_le inside), Outcome.ok_bind,
        cut_eq_ok inside, Outcome.ok_bind]
      dsimp only
      rw [front, ratio_eq_ok (Nat.pos_of_ne_zero few), Outcome.ok_bind,
        Nat.mul_div_cancel_left _ (Nat.pos_of_ne_zero few), succeeds, Outcome.ok_bind,
        cut_eq_ok (sized ▸ inside), Outcome.ok_bind]
      dsimp only
      rw [overwrite_eq_ok behind, Outcome.ok_bind, unshuffle_eq_samples narrow, holds.samples_eq]
      rfl

end PixelBlocks.Checked

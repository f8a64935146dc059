import Mathlib.Data.Multiset.Bind
import PixelBlocks.Proofs.Transform.Reversible

/-!
# Where shuffling puts each byte

Shuffling transposes the table of sample bytes: the byte at a place of a sample goes to the
plane of that place. It is written with iterators that step over the samples, and undone by
storing plane after plane. Both move every byte once and stay within the bytes that there
are, also where a sample is longer than all of them.
-/

namespace PixelBlocks

namespace Checked

section Shuffle

open PixelBlocks.Shuffle

/-- The first byte, and then each byte behind as many others as are passed over. -/
def everyNth (passed : Nat) : Bytes → Bytes
  | [] => []
  | byte :: rest => byte :: everyNth passed (rest.drop passed)
termination_by bytes => bytes.length
decreasing_by
  simp only [List.length_drop, List.length_cons]
  omega

/-- Every so many bytes, starting with the first. There are no steps of width zero. -/
def stepBy (width : Nat) (bytes : Bytes) : Checked Bytes :=
  if width = 0 then .error .outOfRange else .ok (everyNth (width - 1) bytes)

/-- Groups the bytes by their place within a sample, in steps that are checked. -/
def shuffle (typeSize : Nat) (bytes : Bytes) : Checked Bytes :=
  if typeSize < 2 then .ok bytes
  else do
    let count ← ratio bytes.length typeSize
    let whole ← placeWithin bytes.toArray (count * typeSize)
    let (samples, rest) ← cut whole bytes
    let planes ← (List.range typeSize).mapM fun place => stepBy typeSize (samples.drop place)
    return planes.flatten ++ rest

/-- Stepping over whole samples from one place gives the plane of that place. The induction takes
away the first sample. -/
theorem everyNth_drop {typeSize count place : Nat} (inside : place < typeSize) {samples : Bytes}
    (whole : samples.length = count * typeSize) :
    everyNth (typeSize - 1) (samples.drop place) =
      plane samples.toArray typeSize count place := by
  induction count generalizing samples with
  | zero =>
    have none : samples = [] := List.length_eq_zero_iff.mp (by omega)
    rw [none, List.drop_nil, everyNth]
    rfl
  | succ count inductionHypothesis =>
    rw [Nat.succ_mul] at whole
    have stored : place < samples.length := by omega
    have later : (samples.drop typeSize).length = count * typeSize := by
      rw [List.length_drop]
      omega
    have next : (samples.drop (place + 1)).drop (typeSize - 1) =
        (samples.drop typeSize).drop place := by
      rw [List.drop_drop, List.drop_drop]
      congr 1
      omega
    rw [List.drop_eq_getElem_cons stored, everyNth, next, inductionHypothesis later, plane, plane,
      List.range_succ_eq_map, List.map_cons, List.map_map]
    congr 1
    · simp [stored]
    · apply List.map_congr_left
      intro index _
      have moved : typeSize + (index * typeSize + place) = (index + 1) * typeSize + place := by
        rw [Nat.succ_mul]
        omega
      simp [Array.getD_eq_getD_getElem?, moved]

/-- Samples are grouped within their bytes. -/
theorem shuffle_eq_ok (typeSize : Nat) (bytes : Bytes) :
    shuffle typeSize bytes = .ok (Shuffle.shuffle typeSize bytes) := by
  by_cases narrow : typeSize < 2
  · rw [shuffle, if_pos narrow, Shuffle.shuffle, if_pos narrow]
  · have inside := sampleCount_mul_le typeSize bytes
    have count : bytes.length / typeSize = sampleCount typeSize bytes := rfl
    have stepped : ((List.range typeSize).mapM fun place =>
        stepBy typeSize ((bytes.take (sampleCount typeSize bytes * typeSize)).drop place)) =
        .ok ((List.range typeSize).map
          (plane bytes.toArray typeSize (sampleCount typeSize bytes))) := by
      refine Outcome.mapM_eq_ok_map fun place member => ?_
      have within := List.mem_range.mp member
      rw [stepBy, if_neg (by omega), everyNth_drop within (length_take_samples typeSize bytes),
        plane_take bytes within]
    rw [shuffle, if_neg narrow, Shuffle.shuffle, if_neg narrow, ratio_eq_ok (by omega),
      Outcome.ok_bind, count, placeWithin_eq_ok (Nat.le_succ_of_le inside), Outcome.ok_bind,
      cut_eq_ok inside, Outcome.ok_bind]
    dsimp only
    rw [stepped, Outcome.ok_bind, ← List.flatMap_def]
    rfl

end Shuffle

end Checked

namespace Rows

/-- A table has the same entries by rows and by columns. -/
theorem flatMap_map_perm {Row Column Entry : Type} (rows : List Row) (columns : List Column)
    (entry : Row → Column → Entry) :
    (rows.flatMap fun row => columns.map (entry row)).Perm
      (columns.flatMap fun column => rows.map fun row => entry row column) := by
  have same := Multiset.bind_map_comm (rows : Multiset Row) (columns : Multiset Column) (f := entry)
  simpa only [Multiset.map_coe, Multiset.coe_bind, Multiset.coe_eq_coe] using same

end Rows

namespace Shuffle

/-- The byte at each place of each sample, whatever the size of samples is, is the byte at the
place of the sample in the plane. Both places lie within the bytes. -/
theorem exists_getElem?_shuffle {typeSize index place : Nat} (bytes : Bytes)
    (counted : index < sampleCount typeSize bytes) (inside : place < typeSize) :
    ∃ byte, bytes[index * typeSize + place]? = some byte ∧
      (shuffle typeSize bytes)[place * sampleCount typeSize bytes + index]? = some byte := by
  have stored := List.getElem?_eq_getElem (sample_place_lt bytes inside counted)
  refine ⟨_, stored, ?_⟩
  by_cases narrow : typeSize < 2
  · have first : place * sampleCount typeSize bytes = 0 := by
      rw [show place = 0 by omega, Nat.zero_mul]
    have same : index * typeSize + place = index := by
      rw [show typeSize = 1 by omega]
      omega
    rw [shuffle, if_pos narrow, first, Nat.zero_add, ← stored, same]
  · rw [getElem?_shuffle narrow bytes inside counted, stored]

/-- The bytes behind the last whole sample stay where they are. -/
theorem drop_shuffle (typeSize : Nat) (bytes : Bytes) :
    (shuffle typeSize bytes).drop (sampleCount typeSize bytes * typeSize) =
      bytes.drop (sampleCount typeSize bytes * typeSize) := by
  by_cases narrow : typeSize < 2
  · rw [shuffle, if_pos narrow]
  · rw [shuffle_eq_planes narrow, ← length_planes, List.drop_left]

/-- The planes have the bytes of the samples, in another order. -/
theorem planes_perm (typeSize : Nat) (bytes : Bytes) :
    (planes typeSize bytes).Perm (bytes.take (sampleCount typeSize bytes * typeSize)) := by
  have rowwise : (List.range (sampleCount typeSize bytes)).flatMap (fun index =>
      (List.range typeSize).map fun place =>
        bytes.toArray.getD (index * typeSize + place) 0) =
      bytes.take (sampleCount typeSize bytes * typeSize) := by
    have even : ∀ index, ((List.range typeSize).map fun place =>
        bytes.toArray.getD (index * typeSize + place) 0).length = typeSize := by
      simp
    apply Rows.flatMap_eq even
    · exact length_take_samples typeSize bytes
    · intro index place counted inside
      have stored := sample_place_lt bytes inside counted
      rw [List.getElem?_take_of_lt (Rows.place_lt counted inside),
        List.getElem?_eq_getElem stored]
      simp [inside, stored]
  rw [← rowwise]
  exact Rows.flatMap_map_perm _ _ fun place index =>
    bytes.toArray.getD (index * typeSize + place) 0

/-- Shuffling changes nothing but the order of bytes. -/
theorem shuffle_perm (typeSize : Nat) (bytes : Bytes) : (shuffle typeSize bytes).Perm bytes := by
  by_cases narrow : typeSize < 2
  · rw [shuffle, if_pos narrow]
  · have moved := (planes_perm typeSize bytes).append_right
      (bytes.drop (sampleCount typeSize bytes * typeSize))
    rwa [List.take_append_drop, ← shuffle_eq_planes narrow] at moved

/-- Shuffling and unshuffling undo each other. -/
theorem reversible (typeSize : Nat) : Reversible (shuffle typeSize) (unshuffle typeSize) where
  backward_forward := unshuffle_shuffle typeSize
  forward_backward := shuffle_unshuffle typeSize
  length_forward := length_shuffle typeSize
  length_backward := length_unshuffle typeSize

/-- Shuffling is a permutation of the bytes that unshuffling undoes on both sides. The byte at a
place of a sample goes to the plane of that place, at the index of the sample, and the bytes that
do not fill a sample stay at the end. Neither direction leaves the bytes that there are, whatever
the size of samples is. -/
theorem shuffle_layout (typeSize : Nat) (bytes : Bytes) :
    (shuffle typeSize bytes).length = bytes.length ∧
    (shuffle typeSize bytes).Perm bytes ∧
    (∀ index place, index < bytes.length / typeSize → place < typeSize →
      ∃ byte, bytes[index * typeSize + place]? = some byte ∧
        (shuffle typeSize bytes)[place * (bytes.length / typeSize) + index]? = some byte) ∧
    (shuffle typeSize bytes).drop (bytes.length - bytes.length % typeSize) =
      bytes.drop (bytes.length - bytes.length % typeSize) ∧
    Reversible (shuffle typeSize) (unshuffle typeSize) ∧
    Checked.shuffle typeSize bytes = .ok (shuffle typeSize bytes) ∧
    Checked.restoreSamples typeSize bytes = .ok (unshuffle typeSize bytes) := by
  have whole : bytes.length - bytes.length % typeSize = sampleCount typeSize bytes * typeSize := by
    have split := Nat.div_add_mod' bytes.length typeSize
    rw [sampleCount]
    omega
  refine ⟨length_shuffle typeSize bytes, shuffle_perm typeSize bytes, ?_, ?_, reversible typeSize,
    Checked.shuffle_eq_ok typeSize bytes, Checked.restoreSamples_eq_ok typeSize bytes⟩
  · intro index place counted inside
    exact exists_getElem?_shuffle bytes counted inside
  · rw [whole]
    exact drop_shuffle typeSize bytes

/-- Two samples of four bytes, of which the second one has 7 at its third place, and three bytes
behind them. -/
theorem shuffle_layout_uneven :
    let bytes : Bytes := [1, 2, 3, 4, 5, 6, 7, 8, 9, 10, 11]
    1 < bytes.length / 4 ∧ 2 < 4 ∧ bytes[1 * 4 + 2]? = some 7 ∧
      (shuffle 4 bytes)[2 * (bytes.length / 4) + 1]? = some 7 := by
  intro bytes
  have counted : 1 < bytes.length / 4 := by decide
  have inside : 2 < 4 := by decide
  obtain ⟨-, -, moved, -⟩ := shuffle_layout 4 bytes
  obtain ⟨byte, stored, shuffled⟩ := moved 1 2 counted inside
  cases stored
  exact ⟨counted, inside, rfl, shuffled⟩

end Shuffle

end PixelBlocks

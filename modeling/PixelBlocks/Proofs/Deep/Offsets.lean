import Mathlib.Data.List.Chain
import Mathlib.Tactic.MkIffOfInductiveProp
import PixelBlocks.Proofs.Corruption
import PixelBlocks.Proofs.Scalar

/-!
# Offset tables that ascend

An offset counts the samples of a pixel and of all pixels before it. So the offsets of a
block are nowhere negative and nowhere decrease, and the last of them counts all samples.
The walk over a table compares each offset with the one before it only, and starts from
zero; together these comparisons order all offsets. A stored table is checked in the same
way, so whatever bytes it was read from, its offsets are those of some block.
-/

namespace PixelBlocks.Offsets

/-- Offsets of a block: none is negative, and none is above a later one. -/
@[mk_iff]
structure Ascending (offsets : List Int32) : Prop where
  nonnegative : ∀ offset ∈ offsets, 0 ≤ offset
  ordered : offsets.Pairwise (· ≤ ·)

/-- Offsets ascend exactly if no step down leads from zero through all of them. -/
theorem ascending_iff_isChain {offsets : List Int32} :
    Ascending offsets ↔ (0 :: offsets).IsChain (· ≤ ·) := by
  rw [List.isChain_iff_pairwise, List.pairwise_cons, ascending_iff]

/-- The walk from an offset on ends at the last one, unless there is a step down. -/
theorem totalFrom_eq_ok_iff {previous last : Int32} {offsets : List Int32} :
    totalFrom previous offsets = .ok last ↔
      (previous :: offsets).IsChain (· ≤ ·) ∧ last = offsets.getLastD previous := by
  induction offsets generalizing previous with
  | nil => simp [totalFrom, eq_comm]
  | cons offset rest inductionHypothesis =>
    rw [totalFrom, Outcome.guard_eq_ok_iff, inductionHypothesis, Int32.not_lt,
      List.isChain_cons_cons, List.getLastD_cons, and_assoc]

/-- Offsets have a number of samples exactly if they ascend, and then the last one is this
number. -/
theorem total_eq_ok_iff {offsets : List Int32} {samples : Nat} :
    total offsets = .ok samples ↔
      Ascending offsets ∧ samples = (offsets.getLastD 0).toInt.toNat := by
  rw [ascending_iff_isChain]
  constructor
  · intro counted
    obtain ⟨last, walked, same⟩ := Outcome.bind_eq_ok_iff.mp counted
    cases same
    obtain ⟨chain, rfl⟩ := totalFrom_eq_ok_iff.mp walked
    exact ⟨chain, rfl⟩
  · rintro ⟨chain, rfl⟩
    rw [total, totalFrom_eq_ok_iff.mpr ⟨chain, rfl⟩]
    rfl

/-- Offsets that do not ascend are invalid. -/
theorem total_eq_invalid_iff {offsets : List Int32} :
    (∃ cause, total offsets = .error (.invalid cause)) ↔ ¬ Ascending offsets := by
  constructor
  · rintro ⟨cause, failed⟩ ascending
    rw [total_eq_ok_iff.mpr ⟨ascending, rfl⟩] at failed
    cases failed
  · intro unordered
    rcases (invalidAtWorst_total offsets).cases with ⟨samples, counted⟩ | failed
    · exact absurd (total_eq_ok_iff.mp counted).1 unordered
    · exact failed

/-- Offsets that do not ascend have a negative one, or one that is followed by a lower one. -/
theorem not_ascending_iff {offsets : List Int32} :
    ¬ Ascending offsets ↔
      (∃ offset ∈ offsets, offset < 0) ∨
        ∃ before earlier later after, offsets = before ++ earlier :: later :: after ∧
          later < earlier := by
  rw [ascending_iff, ← List.isChain_iff_pairwise, List.isChain_iff_forall_rel_of_append_cons_cons,
    not_and_or]
  simp only [not_forall, Int32.not_le, exists_prop]
  constructor
  · rintro (negative | ⟨earlier, later, before, after, split, lower⟩)
    · exact .inl negative
    · exact .inr ⟨before, earlier, later, after, split, lower⟩
  · rintro (negative | ⟨before, earlier, later, after, split, lower⟩)
    · exact .inl negative
    · exact .inr ⟨earlier, later, before, after, split, lower⟩

section Storing

variable {offsets : List Int32} {table : Bytes} {count : Nat}

/-- Each offset takes four bytes. -/
@[simp] theorem length_encode (offsets : List Int32) :
    (encode offsets).length = offsets.length * 4 :=
  Scalar.length_encodeAll .int32 offsets

/-- A table is read exactly if the asked number of ascending offsets stands in front of it. -/
theorem decode_eq_ok_iff :
    decode count table = .ok offsets ↔
      count * 4 < Size.bound ∧ offsets.length = count ∧ Ascending offsets ∧
        encode offsets <+: table := by
  rw [decode]
  constructor
  · intro decoded
    obtain ⟨⟨values, rest⟩, found, decoded⟩ := Outcome.bind_eq_ok_iff.mp decoded
    obtain ⟨samples, counted, same⟩ := Outcome.bind_eq_ok_iff.mp decoded
    cases same
    obtain ⟨word, length, rfl⟩ := Scalar.readVector_eq_ok_iff.mp found
    exact ⟨word, length, (total_eq_ok_iff.mp counted).1, List.prefix_append _ _⟩
  · rintro ⟨word, length, ascending, rest, rfl⟩
    rw [encode, Scalar.readVector_eq_ok_iff.mpr ⟨word, length, rfl⟩, Outcome.ok_bind]
    dsimp only
    rw [total_eq_ok_iff.mpr ⟨ascending, rfl⟩]
    rfl

/-- Ascending offsets are read back from their table. -/
theorem decode_encode (word : offsets.length * 4 < Size.bound) (ascending : Ascending offsets) :
    decode offsets.length (encode offsets) = .ok offsets :=
  decode_eq_ok_iff.mpr ⟨word, rfl, ascending, List.prefix_refl _⟩

end Storing

end PixelBlocks.Offsets

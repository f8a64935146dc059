import PixelBlocks.Proofs.Decoders
import PixelBlocks.Proofs.Encoders

/-!
# Both steps of preparation are reversible

Differencing and separation lose nothing and add nothing: each has an inverse on both sides,
so every byte string of a length is the result of exactly one of that length. Differencing
works from the back and integration from the front, two differences at a time. What they
have in common is the equation that ties each sample to the one before it, and integration
finds the only samples that meet it.
-/

namespace PixelBlocks

/-- Two operations on byte strings that undo each other and keep the number of bytes. -/
structure Reversible (forward backward : Bytes → Bytes) : Prop where
  backward_forward : ∀ bytes, backward (forward bytes) = bytes
  forward_backward : ∀ bytes, forward (backward bytes) = bytes
  length_forward : ∀ bytes, (forward bytes).length = bytes.length
  length_backward : ∀ bytes, (backward bytes).length = bytes.length

namespace Differences

/-- Samples that start with the first difference. Each later one is the sample before it and
its own difference less 128, up to multiples of 256. -/
structure IsIntegral (differences samples : Bytes) : Prop where
  length : samples.length = differences.length
  first : samples[0]? = differences[0]?
  next : ∀ place (stored : place + 1 < samples.length) (given : place + 1 < differences.length),
    (samples[place + 1].toNat : Int) =
      (samples[place].toNat + differences[place + 1].toNat - 128) % 256

/-- The sum of two bytes less 128 is the remainder of the sum of their numbers. -/
theorem toNat_next (previous step : UInt8) :
    ((previous + step - 128).toNat : Int) = (previous.toNat + step.toNat - 128) % 256 := by
  have raise : (128 : UInt8).toNat = 128 := rfl
  rw [UInt8.toNat_sub, UInt8.toNat_add, raise]
  omega

/-- Integrating one difference after another meets the equation of each sample. The induction
moves on by one sample, which then is the first one. -/
theorem isIntegral_integrate (first : UInt8) (rest : Bytes) :
    IsIntegral (first :: rest) (first :: integrate first rest) where
  length := by simp
  first := rfl
  next := by
    induction rest generalizing first with
    | nil =>
      intro place stored given
      simp at given
    | cons step rest inductionHypothesis =>
      intro place stored given
      cases place with
      | zero => exact toNat_next first step
      | succ place =>
        simp only [integrate, List.length_cons, length_integrate] at stored given
        exact inductionHypothesis (first + step - 128) place (by simp; omega) (by simp; omega)

/-- Integration in pairs finds samples that meet their equations, for even and odd numbers. -/
theorem isIntegral_toSamples (differences : Bytes) :
    IsIntegral differences (toSamples differences) := by
  cases differences with
  | nil => exact ⟨rfl, rfl, fun _ stored => absurd stored (Nat.not_lt_zero _)⟩
  | cons first rest =>
    rw [toSamples, integratePairs_eq_integrate]
    exact isIntegral_integrate first rest

/-- The equations leave no choice. The induction goes from each place to the next one. -/
theorem IsIntegral.unique {differences samples others : Bytes}
    (found : IsIntegral differences samples) (other : IsIntegral differences others) :
    samples = others := by
  have lengths : samples.length = others.length := found.length.trans other.length.symm
  have same : ∀ place : Nat, samples[place]? = others[place]? := by
    intro place
    induction place with
    | zero => exact found.first.trans other.first.symm
    | succ place inductionHypothesis =>
      by_cases stored : place + 1 < samples.length
      · have present : place + 1 < others.length := lengths ▸ stored
        have given : place + 1 < differences.length := found.length ▸ stored
        rw [List.getElem?_eq_getElem (Nat.lt_of_succ_lt stored),
          List.getElem?_eq_getElem (Nat.lt_of_succ_lt present), Option.some.injEq]
          at inductionHypothesis
        have here := found.next place stored given
        have there := other.next place present given
        rw [inductionHypothesis] at here
        rw [List.getElem?_eq_getElem stored, List.getElem?_eq_getElem present, Option.some.injEq]
        exact UInt8.toNat_inj.mp (Int.ofNat_inj.mp (here.trans there.symm))
      · rw [List.getElem?_eq_none (by omega), List.getElem?_eq_none (by omega)]
  exact List.ext_getElem? same

/-- Integration finds exactly the samples that meet their equations. -/
theorem toSamples_eq_iff {differences samples : Bytes} :
    toSamples differences = samples ↔ IsIntegral differences samples := by
  constructor
  · rintro rfl
    exact isIntegral_toSamples differences
  · intro integral
    exact (isIntegral_toSamples differences).unique integral

/-- The raised difference of a sample to the one it was integrated from. -/
theorem difference_add (previous step : UInt8) :
    difference (previous + step - 128) previous = step := by
  unfold difference
  grind

/-- Differencing restores the differences behind a first byte from their integral. -/
theorem zipWith_difference_integrate (first : UInt8) (rest : Bytes) :
    List.zipWith difference (integrate first rest) (first :: integrate first rest) = rest := by
  induction rest generalizing first with
  | nil => rfl
  | cons step rest inductionHypothesis =>
    rw [integrate, List.zipWith_cons_cons, difference_add, inductionHypothesis]

/-- Differencing undoes integration. -/
theorem ofSamples_toSamples (differences : Bytes) :
    ofSamples (toSamples differences) = differences := by
  cases differences with
  | nil => rfl
  | cons first rest =>
    rw [toSamples, integratePairs_eq_integrate, ofSamples, zipWith_difference_integrate]

/-- Differencing and integration undo each other. -/
theorem reversible : Reversible ofSamples toSamples where
  backward_forward := toSamples_ofSamples
  forward_backward := ofSamples_toSamples
  length_forward := length_ofSamples
  length_backward := length_toSamples

end Differences

namespace Separation

/-- Half of the places are even. -/
theorem getElem?_everyOther : ∀ (bytes : Bytes) (place : Nat),
    (everyOther bytes)[place]? = bytes[2 * place]?
  | [], place => by simp [everyOther]
  | [last], 0 => rfl
  | [last], place + 1 => by simp [everyOther]
  | first :: second :: rest, 0 => rfl
  | first :: second :: rest, place + 1 => by
    rw [everyOther, List.getElem?_cons_succ, getElem?_everyOther rest place, Nat.mul_succ]
    rfl

/-- The bytes at even places come first. -/
theorem getElem?_separate_even {bytes : Bytes} {place : Nat} (even : 2 * place < bytes.length) :
    (separate bytes)[place]? = bytes[2 * place]? := by
  rw [separate, List.getElem?_append_left (by rw [length_everyOther]; omega), getElem?_everyOther]

/-- The bytes at odd places come behind them. -/
theorem getElem?_separate_odd (bytes : Bytes) (place : Nat) :
    (separate bytes)[(bytes.length + 1) / 2 + place]? = bytes[2 * place + 1]? := by
  rw [separate, List.getElem?_append_right (by rw [length_everyOther]; omega), length_everyOther,
    Nat.add_sub_cancel_left, getElem?_everyOther, List.getElem?_drop, Nat.add_comm]

/-- Bytes taken in turn are separated again, if there are as many of both or one more of the
first. -/
theorem everyOther_alternate : ∀ {even odd : Bytes},
    even.length = odd.length ∨ even.length = odd.length + 1 →
      everyOther (alternate even odd) = even ∧ everyOther ((alternate even odd).drop 1) = odd
  | [], [], _ => ⟨rfl, rfl⟩
  | [], _ :: _, sized => by simp at sized
  | [last], [], _ => ⟨rfl, rfl⟩
  | _ :: _ :: _, [], sized => by simp at sized
  | first :: restEven, second :: restOdd, sized => by
    simp only [List.length_cons, Nat.add_right_cancel_iff] at sized
    obtain ⟨evens, odds⟩ := everyOther_alternate sized
    constructor
    · rw [alternate, everyOther, evens]
    · rw [alternate, List.drop_one, List.tail_cons, everyOther_cons, odds]

/-- Separation undoes interleaving, for even and odd numbers of bytes. -/
theorem separate_interleave (separated : Bytes) : separate (interleave separated) = separated := by
  have halves : (separated.take ((separated.length + 1) / 2)).length =
        (separated.drop ((separated.length + 1) / 2)).length ∨
      (separated.take ((separated.length + 1) / 2)).length =
        (separated.drop ((separated.length + 1) / 2)).length + 1 := by
    rw [List.length_take, List.length_drop]
    omega
  obtain ⟨evens, odds⟩ := everyOther_alternate halves
  rw [separate, interleave, evens, odds, List.take_append_drop]

/-- Interleaving keeps the number of bytes. -/
@[simp] theorem length_interleave (separated : Bytes) :
    (interleave separated).length = separated.length := by
  rw [← length_separate, separate_interleave]

/-- Separation and interleaving undo each other. -/
theorem reversible : Reversible separate interleave where
  backward_forward := interleave_separate
  forward_backward := separate_interleave
  length_forward := length_separate
  length_backward := length_interleave

end Separation

namespace Preparation

/-- Differencing and separation are reversible, for all byte strings. Integration in pairs comes
to the samples that plain integration from the left defines, and the separated form has the bytes
at even places in front. Every sum of integration fits its signed 16-bit word, differencing from
the back stays within its table, and both halves are taken from and copied over the bytes that
there are. -/
theorem steps_reversible :
    Reversible Differences.ofSamples Differences.toSamples ∧
    (∀ differences samples,
      Differences.toSamples differences = samples ↔
        Differences.IsIntegral differences samples) ∧
    Reversible Separation.separate Separation.interleave ∧
    (∀ bytes place,
      (Separation.separate bytes)[place]? =
        if 2 * place < bytes.length then bytes[2 * place]?
        else bytes[2 * (place - (bytes.length + 1) / 2) + 1]?) ∧
    (∀ bytes,
      Checked.ofSamples bytes = .ok (Differences.ofSamples bytes) ∧
      Checked.toSamples bytes = .ok (Differences.toSamples bytes) ∧
      Checked.separate bytes = .ok (Separation.separate bytes) ∧
      Checked.interleave bytes = .ok (Separation.interleave bytes)) := by
  refine ⟨Differences.reversible, fun _ _ => Differences.toSamples_eq_iff, Separation.reversible,
    ?_, ?_⟩
  · intro bytes place
    split
    · next even => exact Separation.getElem?_separate_even even
    · next behind =>
      have moved := Separation.getElem?_separate_odd bytes (place - (bytes.length + 1) / 2)
      rwa [Nat.add_sub_cancel' (by omega)] at moved
  · intro bytes
    exact ⟨Checked.ofSamples_eq_ok bytes, Checked.toSamples_eq_ok bytes,
      Checked.separate_eq_ok bytes, Checked.interleave_eq_ok bytes⟩

end Preparation

end PixelBlocks

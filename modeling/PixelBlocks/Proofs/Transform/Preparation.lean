import PixelBlocks.Transform.Preparation

/-!
# Preparation can be undone

Differencing is undone by integrating from the front. The pairwise integration is
first shown to be the plain one, which takes one difference after another; the
16-bit sums never matter, since only their lowest byte is kept. Separation is
undone by taking bytes from both halves in turn. Both keep the number of bytes.
-/

namespace PixelBlocks.Differences

/-- The samples after a previous one, one difference at a time. -/
def integrate : (previous : UInt8) → Bytes → Bytes
  | _, [] => []
  | previous, step :: rest =>
    (previous + step - 128) :: integrate (previous + step - 128) rest

/-- The lowest byte of the 16-bit sum is the sum of the bytes. -/
theorem sampleAfter_ofNat_toNat (previous step : UInt8) :
    sampleAfter (Int16.ofNat previous.toNat) step = previous + step - 128 := by
  apply UInt8.toNat_inj.mp
  simp only [sampleAfter, ← UInt8.toNat_toBitVec]
  simp [Int16.toBitVec_ofNat]

/-- Integrating in pairs gives what integrating one by one gives, for even and odd
numbers of differences. -/
theorem integratePairs_eq_integrate : ∀ (previous : UInt8) (steps : Bytes),
    integratePairs (Int16.ofNat previous.toNat) steps = integrate previous steps
  | _, [] => rfl
  | previous, [last] => by
    rw [integratePairs, sampleAfter_ofNat_toNat]
    rfl
  | previous, first :: second :: rest => by
    simp only [integratePairs, integrate, sampleAfter_ofNat_toNat]
    rw [integratePairs_eq_integrate]

/-- A sample is the previous one and their raised difference, less the raise. -/
theorem add_difference (previous sample : UInt8) :
    previous + difference sample previous - 128 = sample := by
  unfold difference
  grind

/-- Integration restores the samples behind a first one from their differences. -/
theorem integrate_zipWith_difference (first : UInt8) (rest : Bytes) :
    integrate first (List.zipWith difference rest (first :: rest)) = rest := by
  induction rest generalizing first with
  | nil => rfl
  | cons second rest inductionHypothesis =>
    rw [List.zipWith_cons_cons, integrate, add_difference, inductionHypothesis]

/-- Integration undoes differencing. -/
theorem toSamples_ofSamples (samples : Bytes) : toSamples (ofSamples samples) = samples := by
  cases samples with
  | nil => rfl
  | cons first rest =>
    rw [ofSamples, toSamples, integratePairs_eq_integrate, integrate_zipWith_difference]

/-- There are as many differences as samples. -/
@[simp] theorem length_ofSamples (samples : Bytes) :
    (ofSamples samples).length = samples.length := by
  cases samples <;> simp [ofSamples]

/-- Integration keeps the number of bytes. -/
@[simp] theorem length_integrate (previous : UInt8) (steps : Bytes) :
    (integrate previous steps).length = steps.length := by
  induction steps generalizing previous with
  | nil => rfl
  | cons step rest inductionHypothesis => simp [integrate, inductionHypothesis]

/-- There are as many samples as differences. -/
@[simp] theorem length_toSamples (differences : Bytes) :
    (toSamples differences).length = differences.length := by
  cases differences <;> simp [toSamples, integratePairs_eq_integrate]

end PixelBlocks.Differences

namespace PixelBlocks.Separation

/-- The bytes at even places are the first one and those at odd places behind it. -/
theorem everyOther_cons (first : UInt8) (rest : Bytes) :
    everyOther (first :: rest) = first :: everyOther (rest.drop 1) := by
  cases rest <;> simp [everyOther]

/-- Half of the bytes, rounded up, are at even places. -/
theorem length_everyOther : ∀ bytes : Bytes, (everyOther bytes).length = (bytes.length + 1) / 2
  | [] => rfl
  | [_] => by simp [everyOther]
  | first :: second :: rest => by
    simp only [everyOther, List.length_cons, length_everyOther rest]
    omega

/-- Separation keeps the number of bytes. -/
@[simp] theorem length_separate (bytes : Bytes) : (separate bytes).length = bytes.length := by
  simp only [separate, List.length_append, length_everyOther, List.length_drop]
  omega

/-- Taking in turn from the bytes at even and at odd places gives all bytes. -/
theorem alternate_everyOther : ∀ bytes : Bytes,
    alternate (everyOther bytes) (everyOther (bytes.drop 1)) = bytes
  | [] => rfl
  | [_] => rfl
  | first :: second :: rest => by
    rw [everyOther, List.drop_one, List.tail_cons, everyOther_cons, alternate,
      alternate_everyOther rest]

/-- Interleaving undoes separation, for even and odd numbers of bytes. -/
theorem interleave_separate (bytes : Bytes) : interleave (separate bytes) = bytes := by
  have evens : (everyOther bytes).length = ((separate bytes).length + 1) / 2 := by
    rw [length_separate, length_everyOther]
  simp only [interleave, ← evens]
  rw [separate, List.take_left, List.drop_left, alternate_everyOther]

end PixelBlocks.Separation

namespace PixelBlocks.Preparation

/-- A prepared block comes back as it was. -/
@[simp] theorem restore_prepare (samples : Bytes) : restore (prepare samples) = samples := by
  rw [restore, prepare, Differences.toSamples_ofSamples, Separation.interleave_separate]

/-- Preparation keeps the number of bytes. -/
@[simp] theorem length_prepare (samples : Bytes) : (prepare samples).length = samples.length := by
  simp [prepare]

end PixelBlocks.Preparation

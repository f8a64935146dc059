import PixelBlocks.Proofs.Geometry.Multiples
import PixelBlocks.Proofs.Layer.Sampling

/-!
# Sampling factors of all 64 bits

Whether a factor divides the window is computed in signed words, so a factor beyond half of
the bound counts as a negative number. It passes if its distance from zero divides the window,
which is not the factor itself. For all other factors the check says what it should: they are
accepted exactly if they divide the window. Then every row of the window has samples, as many
as the width has multiples of the factor, and these multiples fill the window.
-/

namespace PixelBlocks

namespace Channel

variable {channel : Channel} {allowSampling : Bool} {window : Rectangle}

/-- Numbers of columns and rows that divide where a window starts and how large it is. -/
structure DividesWindow (columns rows : Nat) (window : Rectangle) : Prop where
  left : (columns : Int) ∣ window.position.x.toInt
  width : columns ∣ window.size.x.toNat
  top : (rows : Int) ∣ window.position.y.toInt
  height : rows ∣ window.size.y.toNat

/-- A channel is accepted if its factors are positive, are one unless others are allowed, and
divide the window by their magnitudes. -/
theorem validate_iff_dividesWindow (narrow : window.size.x.toNat < 0x80000000)
    (short : window.size.y.toNat < 0x80000000) :
    channel.validate allowSampling window = .ok () ↔
      (channel.sampling.x ≠ 0 ∧ channel.sampling.y ≠ 0) ∧
      (allowSampling = false → channel.sampling = ⟨1, 1⟩) ∧
      DividesWindow (magnitude channel.sampling.x) (magnitude channel.sampling.y) window := by
  have width : window.size.x.toInt64.toInt = window.size.x.toNat := toInt_toInt64 (by omega)
  have height : window.size.y.toInt64.toInt = window.size.y.toNat := toInt_toInt64 (by omega)
  simp only [validate_eq_ok_iff, divides_iff_magnitude, Int32.toInt_toInt64, width, height,
    Int.natCast_dvd_natCast]
  apply and_congr_right'
  apply and_congr_right'
  constructor
  · rintro ⟨⟨left, top⟩, width, height⟩
    exact ⟨left, width, top, height⟩
  · rintro ⟨left, width, top, height⟩
    exact ⟨⟨left, top⟩, width, height⟩

/-- The magnitudes of the factors of all channels of an accepted layer divide its window. -/
theorem dividesWindow_of_mem {layer : Layer} (accepted : layer.Accepted)
    (narrow : layer.window.size.x.toNat < 0x80000000)
    (short : layer.window.size.y.toNat < 0x80000000) {channel : Channel}
    (member : channel ∈ layer.channels) :
    DividesWindow (magnitude channel.sampling.x) (magnitude channel.sampling.y) layer.window :=
  ((validate_iff_dividesWindow narrow short).mp
    (ChannelList.validate_of_mem accepted.channels channel member)).2.2

/-- Up to half of the bound, the magnitude of a factor is its number. -/
theorem magnitude_eq {factor : UInt64} (word : factor.toNat ≤ 0x8000000000000000) :
    magnitude factor = factor.toNat := if_pos word

/-- A quotient times its factor is the size again, if the magnitude of the factor divides the
size, unless the factor is above half of the bound. Then the quotient is zero. -/
theorem div_mul_eq_iff {size factor : UInt64} (small : size.toNat < 0x80000000)
    (divides : magnitude factor ∣ size.toNat) :
    (size / factor).toNat * factor.toNat = size.toNat ↔
      factor.toNat ≤ 0x8000000000000000 ∨ size.toNat = 0 := by
  rw [UInt64.toNat_div]
  by_cases word : factor.toNat ≤ 0x8000000000000000
  · rw [magnitude_eq word] at divides
    exact iff_of_true (Nat.div_mul_cancel divides) (.inl word)
  · rw [Nat.div_eq_of_lt (by omega), Nat.zero_mul]
    omega

section Accepted

variable (accepted : channel.validate allowSampling window = .ok ())
  (narrow : window.size.x.toNat < 0x80000000) (short : window.size.y.toNat < 0x80000000)
  (filled : 0 < window.size.y.toNat)
include accepted narrow short filled

/-- The samples on both axes, times the factors, are the size of the window exactly if no factor
of a side with pixels is above half of the bound. -/
theorem resolution_mul_sampling_iff :
    (∃ resolution, channel.resolution window.size = .ok resolution ∧
      resolution.x.toNat * channel.sampling.x.toNat = window.size.x.toNat ∧
      resolution.y.toNat * channel.sampling.y.toNat = window.size.y.toNat) ↔
      (channel.sampling.x.toNat ≤ 0x8000000000000000 ∨ window.size.x.toNat = 0) ∧
        channel.sampling.y.toNat ≤ 0x8000000000000000 := by
  obtain ⟨nonzero, -, divides⟩ := (validate_iff_dividesWindow narrow short).mp accepted
  have across := div_mul_eq_iff narrow divides.width
  have down := div_mul_eq_iff short divides.height
  rw [or_iff_left (Nat.ne_of_gt filled)] at down
  rw [← across, ← down, resolution, if_neg (not_or.mpr nonzero)]
  simp

variable (limits : window.validate none = .ok ())
include limits

/-- The rows of the window have samples, and counting them leaves no word, if the vertical
factor is at most half of the bound. -/
theorem samplesInRow_of_validate (word : channel.sampling.y.toNat ≤ 0x8000000000000000)
    {row : Int32} (inside : row.toInt ∈ window.rows) :
    channel.samplesInRow row window =
        .ok (if row.toInt % channel.sampling.y.toNat ≠ 0 then 0
          else (window.size.x / channel.sampling.x).toNat) ∧
      Checked.samplesInRow channel row.toInt window =
        Checked.ofOutcome (channel.samplesInRow row window) := by
  obtain ⟨-, -, divides⟩ := (validate_iff_dividesWindow narrow short).mp accepted
  have height := divides.height
  rw [magnitude_eq word] at height
  have small := Nat.le_of_dvd filled height
  have above := Rectangle.lt_start_of_axis (Rectangle.validate_eq_ok_iff.mp limits).2.2
  have roomy := (roomFrom_of_validate accepted above).mono (Rectangle.mem_rows_iff.mp inside).1
  exact ⟨samplesInRow_eq roomy (by omega) window, Checked.samplesInRow_eq_ofOutcome roomy window⟩

/-- All rows of the window have samples exactly if the vertical factor is at most half of the
bound. -/
theorem forall_samplesInRow_iff :
    (∀ row : Int32, row.toInt ∈ window.rows →
      ∃ samples, channel.samplesInRow row window = .ok samples) ↔
      channel.sampling.y.toNat ≤ 0x8000000000000000 := by
  constructor
  · intro all
    have first : window.position.y.toInt ∈ window.rows := Rectangle.mem_rows_iff.mpr (by omega)
    obtain ⟨samples, found⟩ := all window.position.y first
    obtain ⟨word, -⟩ := Outcome.guard_eq_ok_iff.mp found
    omega
  · intro word row inside
    exact ⟨_, (samplesInRow_of_validate accepted narrow short filled limits word inside).1⟩

end Accepted

/-- What the check of sampling factors accepts in an accepted window, for factors of all 64 bits:
positive ones that are one unless others are allowed, and whose magnitudes divide the window.
Factors up to half of the bound are their magnitudes, so they are accepted exactly if they divide
the window. If an accepted channel has such a vertical factor, and only then, every row of a
window with rows has samples. If both factors are of this kind, or the window has no columns,
and only then, the samples on both axes times the factors fill the window. -/
theorem accepted_sampling (limits : window.validate none = .ok ())
    (narrow : window.size.x.toNat < 0x80000000) (short : window.size.y.toNat < 0x80000000)
    (channel : Channel) (allowSampling : Bool) :
    let valid (columns rows : Nat) := (channel.sampling.x ≠ 0 ∧ channel.sampling.y ≠ 0) ∧
      (allowSampling = false → channel.sampling = ⟨1, 1⟩) ∧ DividesWindow columns rows window
    let columns := channel.sampling.x.toNat
    let rows := channel.sampling.y.toNat
    (channel.validate allowSampling window = .ok () ↔
      valid (magnitude channel.sampling.x) (magnitude channel.sampling.y)) ∧
    (columns ≤ 0x8000000000000000 → rows ≤ 0x8000000000000000 →
      (channel.validate allowSampling window = .ok () ↔ valid columns rows)) ∧
    (channel.validate allowSampling window = .ok () → 0 < window.size.y.toNat →
      (rows ≤ 0x8000000000000000 → ∀ row : Int32, row.toInt ∈ window.rows →
        channel.samplesInRow row window =
            .ok (if row.toInt % rows ≠ 0 then 0 else (window.size.x / channel.sampling.x).toNat) ∧
          Checked.samplesInRow channel row.toInt window =
            Checked.ofOutcome (channel.samplesInRow row window)) ∧
      ((∀ row : Int32, row.toInt ∈ window.rows →
        ∃ samples, channel.samplesInRow row window = .ok samples) ↔
          rows ≤ 0x8000000000000000) ∧
      ((∃ resolution, channel.resolution window.size = .ok resolution ∧
        resolution.x.toNat * columns = window.size.x.toNat ∧
        resolution.y.toNat * rows = window.size.y.toNat) ↔
          (columns ≤ 0x8000000000000000 ∨ window.size.x.toNat = 0) ∧
            rows ≤ 0x8000000000000000)) := by
  intro valid columns rows
  refine ⟨validate_iff_dividesWindow narrow short, ?_, ?_⟩
  · intro across down
    rw [validate_iff_dividesWindow narrow short, magnitude_eq across, magnitude_eq down]
  · intro accepted filled
    refine ⟨?_, ?_, ?_⟩
    · intro word row inside
      exact samplesInRow_of_validate accepted narrow short filled limits word inside
    · exact forall_samplesInRow_iff accepted narrow short filled limits
    · exact resolution_mul_sampling_iff accepted narrow short filled

/-- A channel with samples in every second column and every third row. -/
def sparseChannel : Channel := { full "BY" .half with sampling := ⟨2, 3⟩ }

/-- A window that these factors divide. -/
def sparseWindow : Rectangle := ⟨⟨-4, -3⟩, ⟨8, 6⟩⟩

/-- The channel is accepted in this window. Row zero has four samples, and the samples on both
axes fill the window. -/
theorem accepted_sampling_sparse :
    sparseChannel.validate true sparseWindow = .ok () ∧
      sparseChannel.samplesInRow 0 sparseWindow = .ok 4 ∧
      ∃ resolution, sparseChannel.resolution sparseWindow.size = .ok resolution ∧
        resolution.x.toNat * 2 = 8 ∧ resolution.y.toNat * 3 = 6 := by
  have limits : sparseWindow.validate none = .ok () := rfl
  obtain ⟨-, exact, samples⟩ := accepted_sampling limits (by decide) (by decide) sparseChannel true
  have accepted := (exact (by decide) (by decide)).mpr
    ⟨by decide, nofun, ⟨by decide, by decide, by decide, by decide⟩⟩
  obtain ⟨counted, -, fills⟩ := samples accepted (by decide)
  exact ⟨accepted, (counted (by decide) 0 (by decide)).1, fills.mpr (by decide)⟩

/-- A factor of one less than the bound counts as minus one, which divides every window. It is
accepted where it divides nothing, and then no row has samples. -/
theorem accepted_sampling_wraps :
    let channel := { full "C" .half with sampling := ⟨1, 18446744073709551615⟩ }
    let window : Rectangle := ⟨⟨0, 0⟩, ⟨8, 4⟩⟩
    window.validate none = .ok () ∧ channel.validate true window = .ok () ∧
      ¬ DividesWindow 1 18446744073709551615 window ∧
      channel.samplesInRow 0 window = .error (.invalid .channelSampling) ∧
      channel.resolution window.size = .ok ⟨8, 0⟩ :=
  ⟨rfl, rfl, fun divides => absurd divides.height (by decide), rfl, rfl⟩

end Channel

end PixelBlocks

import PixelBlocks.Defaults
import PixelBlocks.Proofs.Outcome

/-!
# Reachable defaults

A process starts with the initial defaults and changes them with setters only. Each
setter checks its argument, so all levels are acceptable after any number of changes,
and all acceptable levels can be set.
-/

namespace PixelBlocks.Defaults

/-- The defaults that a process can have. -/
inductive Reachable : Defaults → Prop
  | initial : Reachable initial
  | setZip {defaults changed : Defaults} {level : Int32} :
    Reachable defaults → defaults.setZip level = .ok changed → Reachable changed
  | setZstd {defaults changed : Defaults} {level : Int32} :
    Reachable defaults → defaults.setZstd level = .ok changed → Reachable changed
  | setQuality {defaults changed : Defaults} {quality : Quality} :
    Reachable defaults → defaults.setQuality quality = .ok changed → Reachable changed

/-- All levels are acceptable. -/
structure Valid (defaults : Defaults) : Prop where
  zip : defaults.zip ≤ 9
  zstd : 1 ≤ defaults.zstd ∧ defaults.zstd ≤ 9
  quality : Quality.isAcceptable defaults.quality = true

/-- A level between two small words is the byte with this number. -/
theorem toNat_toUInt8 {level : Int32} (low : 0 ≤ level) (high : level ≤ 9) :
    (level.toInt.toNat.toUInt8.toNat : Int) = level.toInt := by
  have zero : Int32.toInt 0 = 0 := rfl
  have nine : Int32.toInt 9 = 9 := rfl
  rw [Int32.le_iff_toInt_le, zero] at low
  rw [Int32.le_iff_toInt_le, nine] at high
  simp only [Nat.toUInt8, UInt8.toNat_ofNat']
  omega

/-- A changed zip level is acceptable. -/
theorem Valid.setZip {defaults changed : Defaults} {level : Int32} (valid : defaults.Valid)
    (accepted : defaults.setZip level = .ok changed) : changed.Valid := by
  by_cases within : 0 ≤ level ∧ level ≤ 9
  · rw [Defaults.setZip, if_pos within] at accepted
    cases accepted
    refine ⟨?_, valid.zstd, valid.quality⟩
    have same := toNat_toUInt8 within.1 within.2
    have nine : Int32.toInt 9 = 9 := rfl
    have high := Int32.le_iff_toInt_le.mp within.2
    rw [nine] at high
    rw [UInt8.le_iff_toNat_le]
    simp only [UInt8.reduceToNat]
    omega
  · rw [Defaults.setZip, if_neg within] at accepted
    cases accepted

/-- A byte is the same number as a word. -/
theorem toInt_ofNat (level : UInt8) : (Int32.ofNat level.toNat).toInt = level.toNat :=
  Int32.toInt_ofNat_of_lt (Nat.lt_trans level.toNat_lt (by decide))

/-- The zstandard levels from 1 to 9 are accepted. -/
theorem validateZstd_eq_ok_iff {level : Int32} :
    validateZstd level = .ok () ↔ 1 ≤ level ∧ level ≤ 9 := by
  rw [validateZstd]
  by_cases within : 1 ≤ level ∧ level ≤ 9 <;> simp [within]

/-- The same bounds hold for the byte that a layer or chunk stores. -/
theorem validateZstd_ofNat_eq_ok_iff (level : UInt8) :
    validateZstd (Int32.ofNat level.toNat) = .ok () ↔ 1 ≤ level ∧ level ≤ 9 := by
  have one : Int32.toInt 1 = 1 := rfl
  have nine : Int32.toInt 9 = 9 := rfl
  rw [validateZstd_eq_ok_iff, Int32.le_iff_toInt_le, Int32.le_iff_toInt_le, toInt_ofNat, one, nine,
    UInt8.le_iff_toNat_le, UInt8.le_iff_toNat_le]
  simp only [UInt8.reduceToNat]
  omega

/-- A changed zstandard level is acceptable. -/
theorem Valid.setZstd {defaults changed : Defaults} {level : Int32} (valid : defaults.Valid)
    (accepted : defaults.setZstd level = .ok changed) : changed.Valid := by
  obtain ⟨⟨⟩, checked, same⟩ := Outcome.bind_eq_ok_iff.mp accepted
  cases same
  obtain ⟨low, high⟩ := validateZstd_eq_ok_iff.mp checked
  have positive : (0 : Int32) ≤ level := Int32.le_trans (by decide) low
  have same := toNat_toUInt8 positive high
  have one : Int32.toInt 1 = 1 := rfl
  have nine : Int32.toInt 9 = 9 := rfl
  rw [Int32.le_iff_toInt_le, one] at low
  rw [Int32.le_iff_toInt_le, nine] at high
  refine ⟨valid.zip, ?_, valid.quality⟩
  rw [UInt8.le_iff_toNat_le, UInt8.le_iff_toNat_le]
  simp only [UInt8.reduceToNat]
  omega

/-- A changed quality is acceptable. -/
theorem Valid.setQuality {defaults changed : Defaults} {quality : Quality} (valid : defaults.Valid)
    (accepted : defaults.setQuality quality = .ok changed) : changed.Valid := by
  obtain ⟨⟨⟩, checked, same⟩ := Outcome.bind_eq_ok_iff.mp accepted
  cases same
  by_cases acceptable : Quality.isAcceptable quality = true
  · exact ⟨valid.zip, valid.zstd, acceptable⟩
  · rw [validateQuality, if_neg acceptable] at checked
    cases checked

/-- Levels are acceptable at the start and after every change, so always. -/
theorem Reachable.valid {defaults : Defaults} (reachable : defaults.Reachable) :
    defaults.Valid := by
  induction reachable with
  | initial => exact ⟨by decide, by decide, by decide⟩
  | setZip _ accepted inductionHypothesis => exact inductionHypothesis.setZip accepted
  | setZstd _ accepted inductionHypothesis => exact inductionHypothesis.setZstd accepted
  | setQuality _ accepted inductionHypothesis => exact inductionHypothesis.setQuality accepted

/-- A setter stores the byte whose number it is given. -/
theorem toUInt8_ofNat (level : UInt8) :
    (Int32.ofNat level.toNat).toInt.toNat.toUInt8 = level := by
  rw [toInt_ofNat]
  exact UInt8.ofNat_toNat

/-- Every zip level up to nine can be set. -/
theorem setZip_ofNat (defaults : Defaults) {level : UInt8} (high : level ≤ 9) :
    defaults.setZip (Int32.ofNat level.toNat) = .ok { defaults with zip := level } := by
  have zero : Int32.toInt 0 = 0 := rfl
  have nine : Int32.toInt 9 = 9 := rfl
  have within : 0 ≤ Int32.ofNat level.toNat ∧ Int32.ofNat level.toNat ≤ 9 := by
    rw [Int32.le_iff_toInt_le, Int32.le_iff_toInt_le, toInt_ofNat, zero, nine]
    rw [UInt8.le_iff_toNat_le] at high
    simp only [UInt8.reduceToNat] at high
    omega
  rw [setZip, if_pos within, toUInt8_ofNat]

/-- Every zstandard level from one to nine can be set. -/
theorem setZstd_ofNat (defaults : Defaults) {level : UInt8} (within : 1 ≤ level ∧ level ≤ 9) :
    defaults.setZstd (Int32.ofNat level.toNat) = .ok { defaults with zstd := level } := by
  rw [setZstd, (validateZstd_ofNat_eq_ok_iff level).mpr within, Outcome.ok_bind, toUInt8_ofNat]
  rfl

/-- Acceptable defaults are reached by setting one level after another, and no others are
reached. -/
theorem reachable_iff_valid {defaults : Defaults} : defaults.Reachable ↔ defaults.Valid := by
  refine ⟨Reachable.valid, ?_⟩
  rintro ⟨zip, zstd, quality⟩
  have accepted : Defaults.setQuality { initial with zip := defaults.zip, zstd := defaults.zstd }
      defaults.quality = .ok defaults := by
    rw [setQuality, validateQuality, if_pos quality]
    rfl
  exact .setQuality (.setZstd (.setZip .initial (setZip_ofNat _ zip)) (setZstd_ofNat _ zstd))
    accepted

end PixelBlocks.Defaults

import PixelBlocks.Layer
import PixelBlocks.Proofs.Defaults

/-!
# Accepted layers

What a layer is checked for before an instance is made for it: each check on its own,
and what later proofs need of it.
-/

namespace PixelBlocks.Layer

/-- The checks that an accepted layer passed. -/
structure Accepted (layer : Layer) : Prop where
  window : layer.window.validate none = .ok ()
  channels : layer.channels.validate layer.allowsSampling layer.window = .ok ()
  partition : layer.validatePartition = .ok ()
  depth : layer.validateDepth = .ok ()
  levels : layer.validateLevels = .ok ()

/-- A layer is accepted exactly if it passes each check. -/
theorem validate_eq_ok_iff {layer : Layer} : layer.validate = .ok () ↔ layer.Accepted := by
  constructor
  · intro valid
    obtain ⟨⟨⟩, window, valid⟩ := Outcome.bind_eq_ok_iff.mp valid
    obtain ⟨⟨⟩, channels, valid⟩ := Outcome.bind_eq_ok_iff.mp valid
    obtain ⟨⟨⟩, partition, valid⟩ := Outcome.bind_eq_ok_iff.mp valid
    obtain ⟨⟨⟩, depth, levels⟩ := Outcome.bind_eq_ok_iff.mp valid
    exact ⟨window, channels, partition, depth, levels⟩
  · rintro ⟨window, channels, partition, depth, levels⟩
    simp [validate, window, channels, partition, depth, levels]

/-- There is at least one channel. -/
theorem Accepted.channels_ne_nil {layer : Layer} (accepted : layer.Accepted) :
    layer.channels ≠ [] := by
  intro none
  have checked := accepted.channels
  rw [none] at checked
  cases checked

/-- The level in effect is acceptable, whether the layer or the process chose it. -/
theorem Accepted.effectiveZstdLevel_bounds {layer : Layer} (accepted : layer.Accepted)
    {defaults : Defaults} (acceptable : defaults.Valid) :
    1 ≤ layer.effectiveZstdLevel defaults ∧ layer.effectiveZstdLevel defaults ≤ 9 := by
  have checked := accepted.levels
  rw [effectiveZstdLevel]
  cases asked : layer.zstdLevel with
  | none => exact acceptable.zstd
  | some level =>
    simp only [validateLevels, asked] at checked
    obtain ⟨⟨⟩, zstd, -⟩ := Outcome.bind_eq_ok_iff.mp checked
    exact (Defaults.validateZstd_ofNat_eq_ok_iff level).mp zstd

end PixelBlocks.Layer

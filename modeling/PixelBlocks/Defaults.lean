import PixelBlocks.Fault

/-!
# Default levels

A process has one default for each kind of level. Instances read the defaults
when they are made and keep what they read. A setter that refuses its argument
leaves the defaults as they were.
-/

namespace PixelBlocks

/-- The levels that new instances use. -/
structure Defaults where
  /-- Between 0 and 9. -/
  zip : UInt8
  /-- Between 1 and 9. -/
  zstd : UInt8
  /-- Finite and not negative. -/
  quality : Quality
  deriving DecidableEq, Repr, Inhabited

namespace Defaults

/-- The levels of a new process. The quality is 45. -/
def initial : Defaults := ⟨4, 5, ⟨0x42340000⟩⟩

/-- Accepts zstandard levels between 1 and 9. -/
def validateZstd (level : Int32) : Outcome Unit :=
  if 1 ≤ level ∧ level ≤ 9 then .ok () else .error (.configuration (.zstdLevel level))

/-- Accepts qualities that are finite and not negative. -/
def validateQuality (quality : Quality) : Outcome Unit :=
  if Quality.isAcceptable quality then .ok () else .error (.configuration (.quality quality))

/-- Changes the zip level, which lies between 0 and 9. -/
def setZip (defaults : Defaults) (level : Int32) : Outcome Defaults :=
  if 0 ≤ level ∧ level ≤ 9 then .ok { defaults with zip := level.toInt.toNat.toUInt8 }
  else .error (.configuration (.zipLevel level))

/-- Changes the zstandard level. -/
def setZstd (defaults : Defaults) (level : Int32) : Outcome Defaults := do
  validateZstd level
  return { defaults with zstd := level.toInt.toNat.toUInt8 }

/-- Changes the quality. -/
def setQuality (defaults : Defaults) (quality : Quality) : Outcome Defaults := do
  validateQuality quality
  return { defaults with quality }

end Defaults

end PixelBlocks

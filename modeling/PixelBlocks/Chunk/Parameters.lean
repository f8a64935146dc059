import PixelBlocks.Layer.SampleType
import PixelBlocks.Defaults

/-!
# Chunk parameters

How a chunk prepares its bytes: the size of a sample for shuffling, the level,
and whether floats are truncated or a dictionary is tried.
-/

namespace PixelBlocks

/-- How the samples of a chunk are prepared. -/
inductive Preprocessing
  /-- Shuffle the bytes of the samples. -/
  | shuffle
  /-- Truncate floats of 32 bits, then shuffle. -/
  | truncate
  /-- Shuffle, then try a trained dictionary. -/
  | dictionary
  deriving DecidableEq, Repr, Inhabited

namespace Preprocessing

/-- What suits a sample type: truncation for floats, dictionaries for integers. -/
def ofSampleType : SampleType → Preprocessing
  | .half => shuffle
  | .float => truncate
  | .uint => dictionary

/-- The code in chunk headers. -/
def code : Preprocessing → UInt8
  | shuffle => 0
  | truncate => 1
  | dictionary => 2

/-- The preprocessing with a code. -/
def ofCode (code : UInt8) : Outcome Preprocessing :=
  if code = 0 then .ok shuffle
  else if code = 1 then .ok truncate
  else if code = 2 then .ok dictionary
  else .error (.invalid (.chunkAlgorithm code))

end Preprocessing

/-- Everything that compressing a chunk needs besides its bytes. -/
structure ChunkParameters where
  /-- How many bytes a sample takes. -/
  typeSize : Nat
  /-- Between 1 and 9. -/
  level : UInt8
  preprocessing : Preprocessing
  deriving DecidableEq, Repr, Inhabited

namespace ChunkParameters

/-- What suits a sample type best. -/
def ofSampleType (type : SampleType) (level : UInt8) : ChunkParameters :=
  ⟨type.byteSize, level, .ofSampleType type⟩

/-- Lossless parameters for samples of any size. -/
def shuffle (typeSize : Nat) (level : UInt8) : ChunkParameters :=
  ⟨typeSize, level, .shuffle⟩

/-- Accepts levels from 1 to 9, sizes from 1 to 255, and truncation only of
    samples of four bytes. -/
def validate (parameters : ChunkParameters) : Outcome Unit := do
  Defaults.validateZstd (Int32.ofNat parameters.level.toNat)
  if parameters.typeSize = 0 ∨ 255 < parameters.typeSize then
    .error (.configuration (.typeSize parameters.typeSize))
  else if parameters.preprocessing = .truncate ∧ parameters.typeSize ≠ 4 then
    .error (.configuration .truncationTypeSize)
  else .ok ()

end ChunkParameters

end PixelBlocks

/-!
# Sample types

Every channel holds samples of one of three types. The type decides how many
bytes a sample takes and which transforms suit it.
-/

namespace PixelBlocks

/-- The type of the samples of a channel. -/
inductive SampleType
  /-- Integers of 32 bits. Offset tables of deep blocks use this type. -/
  | uint
  /-- Floating-point numbers of 16 bits. -/
  | half
  /-- Floating-point numbers of 32 bits. -/
  | float
  deriving DecidableEq, Repr, Inhabited

namespace SampleType

/-- How many bytes one sample takes. -/
def byteSize : SampleType → Nat
  | half => 2
  | float => 4
  | uint => 4

/-- No sample is empty. -/
theorem byteSize_pos (type : SampleType) : 0 < type.byteSize := by
  cases type <;> decide

/-- The name of the type in messages and channel arguments. -/
def name : SampleType → String
  | uint => "uint"
  | half => "half"
  | float => "float"

/-- All types, in the order of descriptions. -/
def all : List SampleType := [half, float, uint]

/-- The type with the given name, spelled exactly. -/
def ofName? (text : String) : Option SampleType :=
  all.find? fun type => type.name == text

end SampleType

end PixelBlocks

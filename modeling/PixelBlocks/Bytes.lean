/-!
# Byte strings and their sizes

Blocks, chunks and files are lists of bytes. The sizes of buffers are words of
64 bits, so a sum or product of sizes is only a size if it stays below `2 ^ 64`.
-/

namespace PixelBlocks

/-- A byte string. -/
abbrev Bytes := List UInt8

namespace Size

/-- Sizes lie strictly below this number. -/
def bound : Nat := 0x10000000000000000

/-- Buffers have fewer bytes than this, so that places in them can be subtracted. -/
def bufferBound : Nat := 0x8000000000000000

/-- The sum, if it is a size. -/
def add? (first second : Nat) : Option Nat :=
  if first + second < bound then some (first + second) else none

/-- The product, if it is a size. -/
def mul? (first second : Nat) : Option Nat :=
  if first * second < bound then some (first * second) else none

/-- A sum exists exactly below the bound, and is then the sum of the numbers. -/
theorem add?_eq_some_iff {first second total : Nat} :
    add? first second = some total ↔ first + second < bound ∧ total = first + second := by
  unfold add?
  by_cases fits : first + second < bound <;> simp [fits, eq_comm]

/-- A product exists exactly below the bound, and is then the product of the
    numbers. -/
theorem mul?_eq_some_iff {first second total : Nat} :
    mul? first second = some total ↔ first * second < bound ∧ total = first * second := by
  unfold mul?
  by_cases fits : first * second < bound <;> simp [fits, eq_comm]

/-- A product that is added to a size exists exactly if the sum is a size. -/
theorem mul?_bind_add?_eq_some_iff {total first second sum : Nat} :
    (mul? first second).bind (add? total) = some sum ↔
      sum = total + first * second ∧ sum < Size.bound := by
  rw [Option.bind_eq_some_iff]
  constructor
  · rintro ⟨product, multiplied, added⟩
    obtain ⟨-, rfl⟩ := mul?_eq_some_iff.mp multiplied
    obtain ⟨fits, rfl⟩ := add?_eq_some_iff.mp added
    exact ⟨rfl, fits⟩
  · rintro ⟨rfl, fits⟩
    exact ⟨first * second, mul?_eq_some_iff.mpr ⟨by omega, rfl⟩,
      add?_eq_some_iff.mpr ⟨fits, rfl⟩⟩

end Size

end PixelBlocks

import PixelBlocks.Bits.Source

/-!
# Canonical codes

A canonical code is given by the code length of every symbol. Shorter codes come
first, and codes of one length are consecutive numbers in the order of the
symbols. A code must use up all bit patterns, with two exceptions: a code without
symbols, and a code of one symbol of one bit. Both patterns of one bit then stand
for the only symbol, or for symbol zero.
-/

namespace PixelBlocks.Zlib

/-- The symbols of a code by length, and how many there are of each length. -/
structure CanonicalCode where
  counts : Array Nat
  symbols : Array Nat

namespace CanonicalCode

/-- No code is longer than this. -/
def longest : Nat := 15

/-- How many symbols have each length. Length zero means that there is no code. -/
def countLengths (lengths : Array Nat) : Array Nat :=
  lengths.foldl (fun counts length => counts.modify length (· + 1))
    (Array.replicate (longest + 1) 0)

/-- The symbols with codes, in the order of their codes. -/
def sortSymbols (lengths : Array Nat) : Array Nat :=
  (Array.range longest).flatMap fun shorter =>
    (Array.range lengths.size).filter fun symbol => lengths.getD symbol 0 == shorter + 1

/-- How many patterns of the longest length are left after giving out the codes
    of the lengths from the given one on, or nothing if there are too few. -/
def patternsLeft? (counts : Array Nat) : (lengths : Nat) → (length left : Nat) → Option Nat
  | 0, _, left => some left
  | lengths + 1, length, left =>
    let taken := counts.getD length 0
    if 2 * left < taken then none
    else patternsLeft? counts lengths (length + 1) (2 * left - taken)

/-- The code with the given lengths. -/
def ofLengths? (lengths : Array Nat) : Option CanonicalCode := do
  let counts := countLengths lengths
  let symbols := sortSymbols lengths
  let left ← patternsLeft? counts longest 1 1
  if left = 0 then some ⟨counts, symbols⟩
  else if symbols.size = 0 then some ⟨#[0, 2], #[0, 0]⟩
  else if symbols.size = 1 ∧ counts.getD 1 0 = 1 then
    let only := symbols.getD 0 0
    some ⟨#[0, 2], #[only, only]⟩
  else none

/-- Reads bits until they make up a code, trying lengths upwards. `first` is the
    first code of the length and `index` the number of shorter codes. -/
def decodeFrom (code : CanonicalCode) :
    (lengths : Nat) → (length prefixCode first index : Nat) → BitSource → Option (Nat × BitSource)
  | 0, _, _, _, _, _ => none
  | lengths + 1, length, prefixCode, first, index, source => do
    let (bit, source) ← source.bit?
    let candidate := 2 * prefixCode + bit
    let count := code.counts.getD length 0
    if candidate < first + count then
      let symbol ← code.symbols[index + (candidate - first)]?
      return (symbol, source)
    else
      decodeFrom code lengths (length + 1) candidate (2 * (first + count)) (index + count) source

/-- Reads one symbol. -/
def decode (code : CanonicalCode) (source : BitSource) : Option (Nat × BitSource) :=
  decodeFrom code longest 1 0 0 0 source

end CanonicalCode

end PixelBlocks.Zlib

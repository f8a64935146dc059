import PixelBlocks.Zstd.StateTable

/-!
# Codes of literals

The code of the literals of a block is given by weights: the larger the weight of a
symbol, the shorter its code. The weight of the last symbol is not stored, because
the weights must fill a power of two. Weights are stored as four bits each, or
coded with a state table.
-/

namespace PixelBlocks.Zstd

/-- A symbol and the width of its code. -/
structure CodeEntry where
  symbol : UInt8
  width : Nat
  deriving Repr, Inhabited

/-- For each pattern of `log` bits the symbol whose code it starts with. -/
structure LiteralCode where
  log : Nat
  entries : Array CodeEntry
  deriving Repr, Inhabited

namespace LiteralCode

/-- No code is longer than this. -/
def longest : Nat := 12

/-- How many patterns a weight stands for. -/
def patterns (weight : Nat) : Nat :=
  if weight = 0 then 0 else 1 <<< (weight - 1)

/-- The patterns of all symbols of one weight. -/
def entriesOf (log weight : Nat) (weights : Array Nat) : Array CodeEntry :=
  (Array.range weights.size).flatMap fun symbol =>
    if weights.getD symbol 0 = weight
    then Array.replicate (patterns weight) ⟨symbol.toUInt8, log + 1 - weight⟩
    else #[]

/-- The code with the given weights of all symbols but the last. At least two
    symbols, and an even number of them, have the longest codes. -/
def ofWeights? (weights : Array Nat) : Option LiteralCode :=
  let total := weights.foldl (fun sum weight => sum + patterns weight) 0
  let log := Nat.log2 total + 1
  let rest := (1 <<< log) - total
  let lastWeight := Nat.log2 rest + 1
  let all := weights.push lastWeight
  let longestCodes := all.foldl (fun count weight => if weight = 1 then count + 1 else count) 0
  if total = 0 ∨ longest < log ∨ weights.any (longest < ·) ∨ 255 < weights.size
      ∨ rest ≠ 1 <<< (lastWeight - 1) ∨ longestCodes < 2 ∨ longestCodes % 2 = 1
  then none
  else some ⟨log, (Array.range log).flatMap fun lower => entriesOf log (lower + 1) all⟩

/-- The halves of bytes, high half first. -/
def halves (bytes : ByteArray) (count : Nat) : Array Nat :=
  (Array.range count).map fun index =>
    let byte := byteAt bytes (index / 2)
    if index % 2 = 0 then (byte >>> 4).toNat else (byte &&& 15).toNat

/-- Decodes weights with two states in turn, until a state would need bits that are
    not there. Then both states give their last symbol. -/
def decodeWeights (table : StateTable) :
    (steps : Nat) → (current other : CodeState) → BackwardBits → (weights : Array Nat) →
    Option (Array Nat)
  | 0, _, _, _, _ => none
  | steps + 1, current, other, bits, weights =>
    let weights := weights.push current.symbol
    let (next, bits) := table.advance current bits
    if bits.left < 0 then some (weights.push other.symbol)
    else decodeWeights table steps other next bits weights

/-- The weights behind a state table. -/
def codedWeights? (bytes : ByteArray) : Option (Array Nat) := do
  let (distribution, source) ← Distribution.read? 6 256 ⟨bytes, 0⟩
  let table := StateTable.ofDistribution distribution
  let bits ← BackwardBits.ofBytes? (bytes.extract source.byteIndex bytes.size)
  let (first, bits) := table.start bits
  let (second, bits) := table.start bits
  decodeWeights table 254 first second bits #[]

/-- Reads the description of a code at the start of some bytes, and returns how many
    bytes it takes. -/
def read? (bytes : ByteArray) : Option (LiteralCode × Nat) := do
  let head := (byteAt bytes 0).toNat
  if bytes.size = 0 then none
  else if 128 ≤ head then
    let count := head - 127
    let length := (count + 1) / 2
    if bytes.size < 1 + length then none
    else
      let code ← ofWeights? (halves (bytes.extract 1 (1 + length)) count)
      return (code, 1 + length)
  else if bytes.size < 1 + head then none
  else
    let weights ← codedWeights? (bytes.extract 1 (1 + head))
    let code ← ofWeights? weights
    return (code, 1 + head)

/-- Decodes as many symbols as asked for. -/
def decodeSymbols (code : LiteralCode) :
    (count : Nat) → BackwardBits → (output : ByteArray) → BackwardBits × ByteArray
  | 0, bits, output => (bits, output)
  | count + 1, bits, output =>
    let entry := code.entries.getD (bits.peek code.log) default
    decodeSymbols code count (bits.skip entry.width) (output.push entry.symbol)

/-- Appends the symbols of a bit string, which must be used up exactly. -/
def decodeStream (code : LiteralCode) (count : Nat) (stream output : ByteArray) :
    Option ByteArray := do
  let bits ← BackwardBits.ofBytes? stream
  let (bits, output) := decodeSymbols code count bits output
  if bits.left = 0 then return output else none

end LiteralCode

end PixelBlocks.Zstd

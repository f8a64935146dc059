import PixelBlocks.Zstd.StateTable

/-!
# Codes of sequences

A sequence is a number of literals, a copy length and an offset. Each of the three
has a code of its own, whose symbols are ranges of numbers with extra bits. The
code of a block is predefined, repeats one symbol, is described in the block, or is
the one of the block before.
-/

namespace PixelBlocks.Zstd

/-- Numbers from a base on, selected by extra bits. -/
structure NumberRange where
  base : Nat
  extra : Nat
  deriving Repr, Inhabited

/-- The ranges of literal counts. -/
def literalRanges : Array NumberRange :=
  (Array.range 16).map (⟨·, 0⟩) ++
  #[⟨16, 1⟩, ⟨18, 1⟩, ⟨20, 1⟩, ⟨22, 1⟩, ⟨24, 2⟩, ⟨28, 2⟩, ⟨32, 3⟩, ⟨40, 3⟩,
    ⟨48, 4⟩, ⟨64, 6⟩, ⟨128, 7⟩, ⟨256, 8⟩, ⟨512, 9⟩, ⟨1024, 10⟩, ⟨2048, 11⟩, ⟨4096, 12⟩,
    ⟨8192, 13⟩, ⟨16384, 14⟩, ⟨32768, 15⟩, ⟨65536, 16⟩]

/-- The ranges of copy lengths. -/
def copyRanges : Array NumberRange :=
  (Array.range 32).map (fun symbol => ⟨symbol + 3, 0⟩) ++
  #[⟨35, 1⟩, ⟨37, 1⟩, ⟨39, 1⟩, ⟨41, 1⟩, ⟨43, 2⟩, ⟨47, 2⟩, ⟨51, 3⟩, ⟨59, 3⟩,
    ⟨67, 4⟩, ⟨83, 4⟩, ⟨99, 5⟩, ⟨131, 7⟩, ⟨259, 8⟩, ⟨515, 9⟩, ⟨1027, 10⟩, ⟨2051, 11⟩,
    ⟨4099, 12⟩, ⟨8195, 13⟩, ⟨16387, 14⟩, ⟨32771, 15⟩, ⟨65539, 16⟩]

/-- The ranges of offset values: one for each power of two. -/
def offsetRanges : Array NumberRange :=
  (Array.range 32).map fun symbol => ⟨1 <<< symbol, symbol⟩

/-- One of the three codes of sequences: its ranges, the largest logarithm of a
    described table, and the shares of the predefined table. -/
structure SequenceAlphabet where
  ranges : Array NumberRange
  longestLog : Nat
  predefined : Distribution

/-- The code of literal counts. -/
def literalAlphabet : SequenceAlphabet where
  ranges := literalRanges
  longestLog := 9
  predefined := ⟨6, #[4, 3, 2, 2, 2, 2, 2, 2, 2, 2, 2, 2, 2, 1, 1, 1, 2, 2, 2, 2, 2, 2, 2, 2,
    2, 3, 2, 1, 1, 1, 1, 1, -1, -1, -1, -1]⟩

/-- The code of copy lengths. -/
def copyAlphabet : SequenceAlphabet where
  ranges := copyRanges
  longestLog := 9
  predefined := ⟨6, #[1, 4, 3, 2, 2, 2, 2, 2, 2, 1, 1, 1, 1, 1, 1, 1, 1, 1, 1, 1, 1, 1, 1, 1,
    1, 1, 1, 1, 1, 1, 1, 1, 1, 1, 1, 1, 1, 1, 1, 1, 1, 1, 1, 1, 1, 1, -1, -1, -1, -1, -1, -1,
    -1]⟩

/-- The code of offsets. -/
def offsetAlphabet : SequenceAlphabet where
  ranges := offsetRanges
  longestLog := 8
  predefined := ⟨5, #[1, 1, 1, 1, 1, 1, 2, 2, 2, 1, 1, 1, 1, 1, 1, 1, 1, 1, 1, 1, 1, 1, 1, 1,
    -1, -1, -1, -1, -1]⟩

/-- The tables of the three codes. -/
structure SequenceTables where
  literals : StateTable
  offsets : StateTable
  copies : StateTable
  deriving Repr, Inhabited

namespace SequenceAlphabet

/-- The table of a code as its mode says, read from the source where it is
    described. -/
def readTable? (alphabet : SequenceAlphabet) (mode : Nat) (previous : Option StateTable)
    (source : BitSource) : Option (StateTable × BitSource) :=
  if mode = 0 then some (StateTable.ofDistribution alphabet.predefined, source)
  else if mode = 1 then do
    let (symbol, source) ← BitSource.field? 8 source
    if symbol < alphabet.ranges.size then return (StateTable.constant symbol, source) else none
  else if mode = 2 then do
    let (distribution, source) ←
      Distribution.read? alphabet.longestLog alphabet.ranges.size source
    return (StateTable.ofDistribution distribution, source)
  else previous.map (·, source)

/-- The number that a state and its extra bits stand for. -/
def readNumber (alphabet : SequenceAlphabet) (state : CodeState) (bits : BackwardBits) :
    Nat × BackwardBits :=
  let range := alphabet.ranges.getD state.symbol default
  let (offset, bits) := bits.field range.extra
  (range.base + offset, bits)

end SequenceAlphabet

end PixelBlocks.Zstd

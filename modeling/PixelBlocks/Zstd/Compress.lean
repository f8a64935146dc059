import PixelBlocks.Bits.Sink
import PixelBlocks.Zstd.Frame

/-!
# Writing frames

Content is written as one frame that says its size. Each block is the shortest of a
raw block, a repeated byte, and a compressed block with plain literals, in which the
codes of sequences are predefined or repeat one symbol.
-/

namespace PixelBlocks.Zstd

/-- Which copies sequences can write within a block. -/
def copyLimits : Repeats.Limits := ⟨4, 65536, 131072⟩

/-- The search for copies at a level. At level 11 and above a copy at the next place
    is preferred if it reaches the end of the block. -/
def searchAt (level : Int32) : Repeats.Search where
  earliest := 0
  depth := 24
  lookahead := if level < 11 then .off else .finishing
  patience := if level < 12 then 12 else if level < 14 then 32 else if level < 18 then 256 else 999

/-- Literals followed by a copy, of which the offset is already a value. -/
structure Sequence where
  literals : Nat
  length : Nat
  offset : Nat
  deriving Repr, Inhabited

/-- Sequences, the literals of all of them, and the recent distances on the way. -/
structure Parse where
  sequences : Array Sequence
  literals : ByteArray
  /-- Literals since the last copy. -/
  waiting : Nat
  recent : RecentOffsets

namespace Parse

/-- The value that stands for a distance: 1 for the most recent one if there are
    literals, else the distance itself raised by three. -/
def offsetValue (parse : Parse) (distance : Nat) : Nat :=
  if distance = parse.recent.first ∧ 0 < parse.waiting then 1 else distance + 3

/-- Adds a token. -/
def add (parse : Parse) (token : Token) : Parse :=
  match token with
  | .literal byte =>
    { parse with literals := parse.literals.push byte, waiting := parse.waiting + 1 }
  | .copy length distance =>
    let value := parse.offsetValue distance
    let recent := (parse.recent.resolve value parse.waiting).2
    { parse with
      sequences := parse.sequences.push ⟨parse.waiting, length, value⟩
      waiting := 0
      recent }

/-- The sequences and literals of a block. -/
def ofBlock (level : Int32) (recent : RecentOffsets) (block : ByteArray) : Parse :=
  (Repeats.tokens copyLimits (searchAt level) block).foldl add ⟨#[], ByteArray.empty, 0, recent⟩

end Parse

/-- The last of the first ranges that starts at or below a number. -/
def rangeIndex (ranges : Array NumberRange) (value : Nat) : (count : Nat) → Nat
  | 0 => 0
  | count + 1 =>
    if (ranges.getD count default).base ≤ value then count else rangeIndex ranges value count

/-- The symbol of a number. -/
def SequenceAlphabet.symbolOf (alphabet : SequenceAlphabet) (value : Nat) : Nat :=
  rangeIndex alphabet.ranges value alphabet.ranges.size

/-- Writes the extra bits of a number. -/
def putExtra (sink : BitSink) (alphabet : SequenceAlphabet) (value : Nat) : BitSink :=
  let range := alphabet.ranges.getD (alphabet.symbolOf value) default
  sink.put (value - range.base) range.extra

/-- The number of a state with a symbol from which a given state can follow, and the
    state itself. Without a given state any state with the symbol will do. -/
def stateBefore (table : StateTable) (symbol : Nat) (following : Option Nat) :
    Nat × CodeState :=
  let suits (state : CodeState) : Bool :=
    state.symbol == symbol && following.all fun number =>
      decide (state.base ≤ number) && decide (number < state.base + (1 <<< state.width))
  match table.states.findIdx? suits with
  | some number => (number, table.state number)
  | none => (0, default)

/-- The bits that are written so far, and the states that the last written sequence
    starts from. There are none before the first. -/
structure Emission where
  sink : BitSink
  literalState : Option Nat
  copyState : Option Nat
  offsetState : Option Nat

/-- Writes how a state is left for the one that follows, and returns its number. -/
def putState (sink : BitSink) (table : StateTable) (symbol : Nat) (following : Option Nat) :
    BitSink × Nat :=
  let (number, state) := stateBefore table symbol following
  match following with
  | some next => (sink.put (next - state.base) state.width, number)
  | none => (sink, number)

/-- Writes a sequence in front of those written before. Everything is in the opposite
    order of reading. -/
def putSequence (tables : SequenceTables) (emission : Emission) (sequence : Sequence) :
    Emission :=
  let sink := emission.sink
  let (sink, offsetState) := putState sink tables.offsets
    (offsetAlphabet.symbolOf sequence.offset) emission.offsetState
  let (sink, copyState) := putState sink tables.copies
    (copyAlphabet.symbolOf sequence.length) emission.copyState
  let (sink, literalState) := putState sink tables.literals
    (literalAlphabet.symbolOf sequence.literals) emission.literalState
  let sink := putExtra sink literalAlphabet sequence.literals
  let sink := putExtra sink copyAlphabet sequence.length
  let sink := putExtra sink offsetAlphabet sequence.offset
  ⟨sink, some literalState, some copyState, some offsetState⟩

/-- The symbol that more than two numbers share, if they do. -/
def sharedSymbol? (alphabet : SequenceAlphabet) (numbers : List Nat) : Option Nat :=
  match numbers.map alphabet.symbolOf with
  | first :: second :: third :: others =>
    if (second :: third :: others).all (· == first) then some first else none
  | _ => none

/-- The code of numbers: how it is named, what describes it, and its table. A symbol
    that all numbers share needs no bits, and other codes are predefined. -/
def codeOf (alphabet : SequenceAlphabet) (numbers : List Nat) : Nat × List UInt8 × StateTable :=
  match sharedSymbol? alphabet numbers with
  | some symbol => (1, [symbol.toUInt8], StateTable.constant symbol)
  | none => (0, [], StateTable.ofDistribution alphabet.predefined)

/-- The bits of sequences, closed by the first states and the end mark. -/
def sequenceBits (tables : SequenceTables) (sequences : Array Sequence) : ByteArray :=
  let emission := sequences.foldr (fun sequence emission => putSequence tables emission sequence)
    ⟨BitSink.empty, none, none, none⟩
  let sink := emission.sink.put (emission.copyState.getD 0) tables.copies.log
  let sink := sink.put (emission.offsetState.getD 0) tables.offsets.log
  let sink := sink.put (emission.literalState.getD 0) tables.literals.log
  (sink.put 1 1).finish

/-- The codes of sequences followed by their bits. -/
def codedSequences (sequences : Array Sequence) : ByteArray :=
  let all := sequences.toList
  let (literalMode, literalSymbol, literals) := codeOf literalAlphabet (all.map (·.literals))
  let (offsetMode, offsetSymbol, offsets) := codeOf offsetAlphabet (all.map (·.offset))
  let (copyMode, copySymbol, copies) := codeOf copyAlphabet (all.map (·.length))
  let modes := (literalMode * 64 + offsetMode * 16 + copyMode * 4).toUInt8
  ⟨(modes :: literalSymbol ++ offsetSymbol ++ copySymbol).toArray⟩
    ++ sequenceBits ⟨literals, offsets, copies⟩ sequences

/-- A number as bytes, lowest first. -/
def littleEndianBytes (width number : Nat) : ByteArray :=
  ⟨(Array.range width).map fun place => (number >>> (8 * place)).toUInt8⟩

/-- Whether all bytes equal the first. -/
def isConstant (bytes : ByteArray) : Bool :=
  bytes.data.all (· == byteAt bytes 0)

/-- The header of plain literals of a kind. -/
def plainHeader (kind size : Nat) : ByteArray :=
  if size < 32 then littleEndianBytes 1 (size * 8 + kind)
  else if size < 4096 then littleEndianBytes 2 (size * 16 + 4 + kind)
  else littleEndianBytes 3 (size * 16 + 12 + kind)

/-- Plain literals, or one byte that is repeated. -/
def plainLiterals (literals : ByteArray) : ByteArray :=
  if 1 < literals.size ∧ isConstant literals then
    (plainHeader 1 literals.size).push (byteAt literals 0)
  else plainHeader 0 literals.size ++ literals

/-- The number of sequences. -/
def sequenceCount (count : Nat) : ByteArray :=
  if count < 128 then littleEndianBytes 1 count
  else if count < 32512 then ⟨#[(count / 256 + 128).toUInt8, count.toUInt8]⟩
  else (ByteArray.mk #[255]) ++ littleEndianBytes 2 (count - 32512)

/-- The content of a compressed block. -/
def compressedBlock (parse : Parse) : ByteArray :=
  let front := plainLiterals parse.literals ++ sequenceCount parse.sequences.size
  if parse.sequences.isEmpty then front
  else front ++ codedSequences parse.sequences

/-- A block after its header, which says its kind and size and whether it is last. -/
def blockWith (last : Bool) (kind size : Nat) (content : ByteArray) : ByteArray :=
  littleEndianBytes 3 ((if last then 1 else 0) + 2 * kind + 8 * size) ++ content

/-- The shortest form of a block, and the recent distances after it. A block that
    repeats a byte is only named as such if it is not the first. -/
def writeBlock (level : Int32) (first last : Bool) (recent : RecentOffsets)
    (block : ByteArray) : ByteArray × RecentOffsets :=
  if ¬ first ∧ isConstant block then
    (blockWith last 1 block.size (block.extract 0 1), recent)
  else
    let parse := Parse.ofBlock level recent block
    let content := compressedBlock parse
    if content.size < block.size then (blockWith last 2 content.size content, parse.recent)
    else (blockWith last 0 block.size block, recent)

/-- Blocks from an index on. -/
def writeBlocks (level : Int32) (bytes : ByteArray) :
    (blocks : Nat) → (index : Nat) → RecentOffsets → (output : ByteArray) → ByteArray
  | 0, _, _, output => output
  | blocks + 1, index, recent, output =>
    let stop := min (index + largestBlock) bytes.size
    let last := stop = bytes.size
    let (block, recent) :=
      writeBlock level (index = 0) last recent (bytes.extract index stop)
    let output := output ++ block
    if last then output else writeBlocks level bytes blocks stop recent output

/-- The header of a frame of one segment, which says the size of its content. -/
def frameHeader (size : Nat) : ByteArray :=
  let magic := littleEndianBytes 4 frameMagic
  if size < 256 then magic.push 0x20 ++ littleEndianBytes 1 size
  else if size < 65792 then magic.push 0x60 ++ littleEndianBytes 2 (size - 256)
  else if size < 0x100000000 then magic.push 0xa0 ++ littleEndianBytes 4 size
  else magic.push 0xe0 ++ littleEndianBytes 8 size

/-- A frame of some bytes. -/
def compress (level : Int32) (bytes : ByteArray) : ByteArray :=
  writeBlocks level bytes (bytes.size / largestBlock + 1) 0 .initial (frameHeader bytes.size)

end PixelBlocks.Zstd

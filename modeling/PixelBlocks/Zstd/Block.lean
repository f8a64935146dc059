import PixelBlocks.Repeats
import PixelBlocks.Zstd.LiteralCode
import PixelBlocks.Zstd.SequenceCode

/-!
# Compressed blocks

A compressed block holds literals and sequences. Each sequence appends some
literals and then copies earlier content; the literals that are left over come
last. Offsets of 1 to 3 name recently used distances. Codes and recent distances
carry over from block to block within a frame.
-/

namespace PixelBlocks.Zstd

/-- The three distances used last, the most recent one first. -/
structure RecentOffsets where
  first : Nat
  second : Nat
  third : Nat
  deriving Repr, Inhabited

namespace RecentOffsets

/-- The distances at the start of a frame. -/
def initial : RecentOffsets := ⟨1, 4, 8⟩

/-- The distance that an offset value stands for, and the distances used last after
    it. Without literals the names are shifted by one, and the last one stands for
    one less than the most recent distance. -/
def resolve (recent : RecentOffsets) (value literals : Nat) : Nat × RecentOffsets :=
  if 3 < value then (value - 3, ⟨value - 3, recent.first, recent.second⟩)
  else
    let name := if literals = 0 then value else value - 1
    if name = 0 then (recent.first, recent)
    else if name = 1 then (recent.second, ⟨recent.second, recent.first, recent.third⟩)
    else
      let distance := if name = 2 then recent.third else recent.first - 1
      (distance, ⟨distance, recent.first, recent.second⟩)

end RecentOffsets

/-- What blocks of a frame build on. -/
structure Context where
  literalCode : Option LiteralCode
  tables : Option SequenceTables
  recent : RecentOffsets
  /-- The dictionary content followed by the content of the frame so far. -/
  history : ByteArray

/-- Little-endian number of bytes at an index. -/
def numberAt (bytes : ByteArray) (index width : Nat) : Nat :=
  (List.range width).foldr (fun place number =>
    number * 256 + (byteAt bytes (index + place)).toNat) 0

/-- The literals of a block, the code they leave behind, and the index after them. -/
structure Literals where
  bytes : ByteArray
  code : Option LiteralCode
  next : Nat

/-- The largest content of a block. -/
def largestBlock : Nat := 131072

/-- Cuts a byte string into four streams, whose first three lengths come first. -/
def fourStreams? (bytes : ByteArray) : Option (List ByteArray) :=
  let first := 6 + numberAt bytes 0 2
  let second := first + numberAt bytes 2 2
  let third := second + numberAt bytes 4 2
  if bytes.size < 10 ∨ bytes.size < third then none
  else some [bytes.extract 6 first, bytes.extract first second, bytes.extract second third,
    bytes.extract third bytes.size]

/-- Decodes streams one after another, each with its own number of symbols. -/
def decodeStreams (code : LiteralCode) : List (ByteArray × Nat) → ByteArray → Option ByteArray
  | [], output => some output
  | (stream, count) :: rest, output => do
    let output ← code.decodeStream count stream output
    decodeStreams code rest output

/-- The coded literals of a block in one or four streams. -/
def decodeLiterals? (code : LiteralCode) (single : Bool) (size : Nat) (bytes : ByteArray) :
    Option ByteArray :=
  if single then code.decodeStream size bytes ByteArray.empty
  else if size < 6 then none
  else do
    let streams ← fourStreams? bytes
    let part := (size + 3) / 4
    if size < 3 * part then none
    else decodeStreams code (streams.zip [part, part, part, size - 3 * part]) ByteArray.empty

/-- The size of plain literals and of their header, by the format bits. -/
def plainSize (block : ByteArray) (format : Nat) : Nat × Nat :=
  if format = 1 then (numberAt block 0 2 / 16, 2)
  else if format = 3 then (numberAt block 0 3 / 16, 3)
  else (numberAt block 0 1 / 8, 1)

/-- The sizes of coded literals before and after coding, and of their header. -/
def codedSizes (block : ByteArray) (format : Nat) : Nat × Nat × Nat :=
  let width := if format = 3 then 18 else if format = 2 then 14 else 10
  let header := if format = 3 then 5 else if format = 2 then 4 else 3
  let fields := numberAt block 0 header / 16
  (fields % (1 <<< width), (fields >>> width) % (1 <<< width), header)

/-- Reads coded literals, whose code is described or that of the block before. -/
def readCodedLiterals? (context : Context) (block : ByteArray) (described : Bool)
    (format : Nat) : Option Literals :=
  let (size, stored, header) := codedSizes block format
  let next := header + stored
  if block.size < next ∨ largestBlock < size then none
  else do
    let bytes := block.extract header next
    let (code, length) ← if described then LiteralCode.read? bytes
      else context.literalCode.map (·, 0)
    let literals ← decodeLiterals? code (format == 0) size (bytes.extract length bytes.size)
    return ⟨literals, some code, next⟩

/-- Reads the literals of a block. -/
def readLiterals? (context : Context) (block : ByteArray) : Option Literals :=
  let head := (byteAt block 0).toNat
  let kind := head % 4
  let format := head / 4 % 4
  if block.size = 0 then none
  else if kind < 2 then
    let (size, header) := plainSize block format
    let stored := if kind = 0 then size else 1
    if block.size < header + stored ∨ largestBlock < size then none
    else
      let bytes :=
        if kind = 0 then block.extract header (header + size)
        else ⟨Array.replicate size (byteAt block header)⟩
      some ⟨bytes, context.literalCode, header + stored⟩
  else readCodedLiterals? context block (kind == 2) format

/-- The number of sequences at an index, and the index after it. -/
def readCount? (block : ByteArray) (index : Nat) : Option (Nat × Nat) :=
  let head := (byteAt block index).toNat
  let length := if head < 128 then 1 else if head < 255 then 2 else 3
  if block.size < index + length then none
  else if head < 128 then some (head, index + 1)
  else if head < 255 then some ((head - 128) * 256 + numberAt block (index + 1) 1, index + 2)
  else some (numberAt block (index + 1) 2 + 32512, index + 3)

/-- Reads the tables of the sequences of a block. -/
def readTables? (context : Context) (block : ByteArray) (index : Nat) :
    Option (SequenceTables × Nat) := do
  let modes := (byteAt block index).toNat
  if block.size ≤ index ∨ modes % 4 ≠ 0 then none
  else
    let source : BitSource := ⟨block, 8 * (index + 1)⟩
    let previous := context.tables
    let (literals, source) ←
      literalAlphabet.readTable? (modes / 64) (previous.map (·.literals)) source
    let (offsets, source) ←
      offsetAlphabet.readTable? (modes / 16 % 4) (previous.map (·.offsets)) source
    let (copies, source) ←
      copyAlphabet.readTable? (modes / 4 % 4) (previous.map (·.copies)) source
    return (⟨literals, offsets, copies⟩, source.byteIndex)

/-- What running sequences changes. -/
structure Run where
  bits : BackwardBits
  literalState : CodeState
  offsetState : CodeState
  copyState : CodeState
  recent : RecentOffsets
  /-- The index of the next literal. -/
  next : Nat
  history : ByteArray

/-- Reads the states for the next sequence. -/
def Run.advance (run : Run) (tables : SequenceTables) : Run :=
  let (literalState, bits) := tables.literals.advance run.literalState run.bits
  let (copyState, bits) := tables.copies.advance run.copyState bits
  let (offsetState, bits) := tables.offsets.advance run.offsetState bits
  { run with bits, literalState, copyState, offsetState }

/-- Reads and executes sequences. The history may grow up to a limit. -/
def runSequences (tables : SequenceTables) (literals : ByteArray) (limit : Nat) :
    (count : Nat) → Run → Option Run
  | 0, run => some run
  | count + 1, run =>
    let (value, bits) := offsetAlphabet.readNumber run.offsetState run.bits
    let (length, bits) := copyAlphabet.readNumber run.copyState bits
    let (taken, bits) := literalAlphabet.readNumber run.literalState bits
    let (distance, recent) := run.recent.resolve value taken
    let reach := run.history.size + taken
    if literals.size < run.next + taken ∨ limit < reach + length
        ∨ distance = 0 ∨ reach < distance then none
    else
      let history := run.history ++ literals.extract run.next (run.next + taken)
      let history := Repeats.appendCopy distance length history
      let run := { run with bits, recent, next := run.next + taken, history }
      if count = 0 then some run
      else runSequences tables literals limit count (run.advance tables)

/-- Decodes a compressed block onto the history, which may grow up to a limit. -/
def decodeBlock (context : Context) (block : ByteArray) (limit : Nat) : Option Context := do
  let literals ← readLiterals? context block
  let (count, index) ← readCount? block literals.next
  if count = 0 then
    if index ≠ block.size ∨ limit < context.history.size + literals.bytes.size then none
    else return { context with
      literalCode := literals.code
      history := context.history ++ literals.bytes }
  else
    let (tables, index) ← readTables? context block index
    let bits ← BackwardBits.ofBytes? (block.extract index block.size)
    let (literalState, bits) := tables.literals.start bits
    let (offsetState, bits) := tables.offsets.start bits
    let (copyState, bits) := tables.copies.start bits
    let run : Run :=
      { bits, literalState, offsetState, copyState
        recent := context.recent
        next := 0
        history := context.history }
    let run ← runSequences tables literals.bytes limit count run
    let left := literals.bytes.extract run.next literals.bytes.size
    if run.bits.left ≠ 0 ∨ limit < run.history.size + left.size then none
    else return {
      literalCode := literals.code
      tables := some tables
      recent := run.recent
      history := run.history ++ left }

end PixelBlocks.Zstd

import PixelBlocks.Repeats
import PixelBlocks.Zlib.Alphabet
import PixelBlocks.Zlib.CanonicalCode
import PixelBlocks.Zlib.Checksum

/-!
# Reading zlib streams

A zlib stream has a header of two bytes, blocks of deflate data, and a checksum of
the content. Blocks are stored, or coded with the fixed codes, or coded with codes
of their own. The content may not exceed a limit. Bytes behind the checksum are
ignored.
-/

namespace PixelBlocks.Zlib

/-- The bits to read and the content so far. -/
structure Progress where
  source : BitSource
  output : ByteArray

namespace Progress

/-- Reads a field, keeping the content. -/
def field? (progress : Progress) (width : Nat) : Option (Nat × Progress) := do
  let (value, source) ← BitSource.field? width progress.source
  return (value, { progress with source })

/-- Reads a symbol, keeping the content. -/
def symbol? (progress : Progress) (code : CanonicalCode) : Option (Nat × Progress) := do
  let (symbol, source) ← code.decode progress.source
  return (symbol, { progress with source })

/-- Reads the rest of a number whose range is known. -/
def inRange? (progress : Progress) (ranges : Array ValueRange) (symbol : Nat) :
    Option (Nat × Progress) := do
  let range ← ranges[symbol]?
  let (offset, progress) ← progress.field? range.extra
  return (range.base + offset, progress)

end Progress

/-- Reads symbols up to the end of a block. Every symbol takes at least one bit, so
    as many steps as there are bits left are enough. -/
def inflateSymbols (literals distances : CanonicalCode) (limit : Nat) :
    (steps : Nat) → Progress → Option Progress
  | 0, _ => none
  | steps + 1, progress => do
    let (symbol, progress) ← progress.symbol? literals
    if symbol < endOfBlock then
      if progress.output.size < limit then
        let output := progress.output.push symbol.toUInt8
        inflateSymbols literals distances limit steps { progress with output }
      else none
    else if symbol = endOfBlock then some progress
    else
      let (length, progress) ← progress.inRange? lengthRanges (symbol - 257)
      let (distanceSymbol, progress) ← progress.symbol? distances
      let (distance, progress) ← progress.inRange? distanceRanges distanceSymbol
      if distance ≤ progress.output.size ∧ progress.output.size + length ≤ limit then
        let output := Repeats.appendCopy distance length progress.output
        inflateSymbols literals distances limit steps { progress with output }
      else none

/-- Reads a stored block: its length, the complement of the length, and bytes. -/
def inflateStored (limit : Nat) (progress : Progress) : Option Progress := do
  let (length, source) ← BitSource.field? 16 progress.source.align
  let (complement, source) ← BitSource.field? 16 source
  if length + complement = 65535 ∧ progress.output.size + length ≤ limit then
    let (bytes, source) ← source.bytes? length
    return ⟨source, progress.output ++ bytes⟩
  else none

/-- Reads code lengths up to the given number. Three symbols repeat the length
    before them, or zero, and may not go beyond the number. -/
def readLengths (code : CanonicalCode) (count : Nat) :
    (steps : Nat) → (lengths : Array Nat) → BitSource → Option (Array Nat × BitSource)
  | 0, lengths, source => if lengths.size = count then some (lengths, source) else none
  | steps + 1, lengths, source =>
    if count ≤ lengths.size then
      if lengths.size = count then some (lengths, source) else none
    else do
      let (symbol, source) ← code.decode source
      if symbol < 16 then readLengths code count steps (lengths.push symbol) source
      else if symbol = 16 then
        let previous ← lengths.back?
        let (times, source) ← BitSource.field? 2 source
        readLengths code count steps (lengths ++ Array.replicate (times + 3) previous) source
      else if symbol = 17 then
        let (times, source) ← BitSource.field? 3 source
        readLengths code count steps (lengths ++ Array.replicate (times + 3) 0) source
      else
        let (times, source) ← BitSource.field? 7 source
        readLengths code count steps (lengths ++ Array.replicate (times + 11) 0) source

/-- Reads the lengths of the code for code lengths, which come in an order of
    their own. -/
def readLengthCode : (count : Nat) → (index : Nat) → (lengths : Array Nat) → BitSource →
    Option (Array Nat × BitSource)
  | 0, _, lengths, source => some (lengths, source)
  | count + 1, index, lengths, source => do
    let (length, source) ← BitSource.field? 3 source
    let place := lengthCodeOrder.getD index 0
    readLengthCode count (index + 1) (lengths.setIfInBounds place length) source

/-- Reads the two codes of a block that brings its own. -/
def readCodes (source : BitSource) : Option (CanonicalCode × CanonicalCode × BitSource) := do
  let (literalExcess, source) ← BitSource.field? 5 source
  let (distanceExcess, source) ← BitSource.field? 5 source
  let (lengthExcess, source) ← BitSource.field? 4 source
  let literalCount := literalExcess + 257
  let distanceCount := distanceExcess + 1
  let (codeLengths, source) ←
    readLengthCode (lengthExcess + 4) 0 (Array.replicate 19 0) source
  let lengthCode ← CanonicalCode.ofLengths? codeLengths
  let total := literalCount + distanceCount
  let (lengths, source) ← readLengths lengthCode total total #[] source
  let literals ← CanonicalCode.ofLengths? (lengths.extract 0 literalCount)
  let distances ← CanonicalCode.ofLengths? (lengths.extract literalCount total)
  return (literals, distances, source)

/-- Reads one block, whose kind is given. -/
def inflateBlock (limit kind : Nat) (progress : Progress) : Option Progress :=
  let steps := progress.source.remaining
  if kind = 0 then inflateStored limit progress
  else if kind = 1 then do
    let literals ← CanonicalCode.ofLengths? fixedLiteralLengths
    let distances ← CanonicalCode.ofLengths? fixedDistanceLengths
    inflateSymbols literals distances limit steps progress
  else if kind = 2 then do
    let (literals, distances, source) ← readCodes progress.source
    inflateSymbols literals distances limit steps { progress with source }
  else none

/-- Reads blocks up to the one that is marked as the last. -/
def inflateBlocks (limit : Nat) : (steps : Nat) → Progress → Option Progress
  | 0, _ => none
  | steps + 1, progress => do
    let (final, progress) ← progress.field? 1
    let (kind, progress) ← progress.field? 2
    let progress ← inflateBlock limit kind progress
    if final = 1 then return progress else inflateBlocks limit steps progress

/-- Whether two bytes are a stream header: deflate with a window of at most 32 kiB,
    and a multiple of 31 as one number. -/
def isHeader (first second : UInt8) : Bool :=
  first &&& 0x0f == 8 && decide (first >>> 4 ≤ 7)
    && (first.toNat * 256 + second.toNat) % 31 == 0

/-- Four bytes as a number, highest byte first. -/
def bigEndianAt (bytes : ByteArray) (index : Nat) : Nat :=
  (List.range 4).foldl (fun number place => number * 256 + (byteAt bytes (index + place)).toNat) 0

/-- The content of a zlib stream of at most `limit` bytes. -/
def inflate (limit : Nat) (stream : ByteArray) : Option ByteArray :=
  if stream.size < 6 ∨ ¬ isHeader (byteAt stream 0) (byteAt stream 1) then none
  else do
    let source : BitSource := ⟨stream, 16⟩
    let progress ← inflateBlocks limit source.remaining ⟨source, ByteArray.empty⟩
    let index := progress.source.align.byteIndex
    if index + 4 ≤ stream.size ∧ bigEndianAt stream index = checksum progress.output
    then return progress.output
    else none

end PixelBlocks.Zlib

import PixelBlocks.Bits.Sink
import PixelBlocks.Repeats
import PixelBlocks.Zlib.Alphabet
import PixelBlocks.Zlib.Checksum

/-!
# Writing zlib streams

At level zero all bytes are stored. At other levels one block of literals and
copies is written with the fixed codes, unless storing the bytes is shorter. Levels
differ in how thoroughly copies are searched.
-/

namespace PixelBlocks.Zlib

/-- A code as it is written: lowest bit first, so with its bits reversed. -/
def reverseBits : (width : Nat) → (code : Nat) → Nat
  | 0, _ => 0
  | width + 1, code => ((code % 2) <<< width) + reverseBits width (code / 2)

/-- The fixed code of a symbol and its width. -/
def fixedCode (symbol : Nat) : Nat × Nat :=
  if symbol < 144 then (48 + symbol, 8)
  else if symbol < 256 then (400 + (symbol - 144), 9)
  else if symbol < 280 then (symbol - 256, 7)
  else (192 + (symbol - 280), 8)

/-- Writes a symbol with the fixed code. -/
def putSymbol (sink : BitSink) (symbol : Nat) : BitSink :=
  let (code, width) := fixedCode symbol
  sink.put (reverseBits width code) width

/-- The last of the first ranges that starts at or below a number. -/
def rangeOf (ranges : Array ValueRange) (value : Nat) : (count : Nat) → Nat
  | 0 => 0
  | count + 1 =>
    if (ranges.getD count default).base ≤ value then count else rangeOf ranges value count

/-- Writes a literal or a copy. -/
def putToken (sink : BitSink) (token : Token) : BitSink :=
  match token with
  | .literal byte => putSymbol sink byte.toNat
  | .copy length distance =>
    let lengthIndex := rangeOf lengthRanges length writableLengths
    let lengthRange := lengthRanges.getD lengthIndex default
    let distanceIndex := rangeOf distanceRanges distance writableDistances
    let distanceRange := distanceRanges.getD distanceIndex default
    let sink := putSymbol sink (257 + lengthIndex)
    let sink := sink.put (length - lengthRange.base) lengthRange.extra
    let sink := sink.put (reverseBits 5 distanceIndex) 5
    sink.put (distance - distanceRange.base) distanceRange.extra

/-- Which copies deflate can write. -/
def copyLimits : Repeats.Limits := ⟨3, 258, 32768⟩

/-- How many places are tried at a level. -/
def searchDepth (level : UInt8) : Nat :=
  [1, 1, 6, 32, 16, 32, 128, 256, 512, 768].getD level.toNat 768

/-- The search for copies at a level. From level 4 on a longer copy is preferred, and
    from level 2 on nothing is copied from the first place. -/
def searchAt (level : UInt8) : Repeats.Search where
  earliest := if level < 2 then 0 else 1
  depth := searchDepth level
  lookahead := if level < 4 then .off else .longer
  patience := 127

/-- One last block with the fixed codes. -/
def fixedBlock (level : UInt8) (bytes : ByteArray) : ByteArray :=
  let sink := (BitSink.empty.put 1 1).put 1 2
  let sink := (Repeats.tokens copyLimits (searchAt level) bytes).foldl putToken sink
  (putSymbol sink endOfBlock).finish

/-- The most bytes of a stored block. -/
def longestStored : Nat := 65535

/-- Stored blocks from a place on, of which there are enough for any length. -/
def putStored (bytes : ByteArray) : (blocks : Nat) → (place : Nat) → BitSink → BitSink
  | 0, _, sink => sink
  | blocks + 1, place, sink =>
    let length := min longestStored (bytes.size - place)
    let last := if place + length = bytes.size then 1 else 0
    let sink := ((sink.put last 1).put 0 2).align
    let sink := (sink.put length 16).put (65535 - length) 16
    let sink := sink.putBytes (bytes.extract place (place + length))
    if last = 1 then sink else putStored bytes blocks (place + length) sink

/-- All bytes in stored blocks. -/
def storedBlocks (bytes : ByteArray) : ByteArray :=
  (putStored bytes (bytes.size / longestStored + 1) 0 BitSink.empty).finish

/-- A number as four bytes, highest first. -/
def bigEndian (number : Nat) : ByteArray :=
  ⟨#[(number / 16777216).toUInt8, (number / 65536).toUInt8, (number / 256).toUInt8,
    number.toUInt8]⟩

/-- The zlib stream of some bytes. -/
def deflate (level : UInt8) (bytes : ByteArray) : ByteArray :=
  let stored := storedBlocks bytes
  let blocks :=
    if level = 0 then stored
    else
      let coded := fixedBlock level bytes
      if coded.size < stored.size then coded else stored
  ⟨#[0x78, 0x01]⟩ ++ blocks ++ bigEndian (checksum bytes)

end PixelBlocks.Zlib

import PixelBlocks.Zstd.Block
import PixelBlocks.Zstd.Checksum

/-!
# Reading frames

Compressed data is any number of frames one after another. A frame has a header,
blocks, and an optional checksum of its content; skippable frames have no content.
A dictionary gives the first blocks of each frame earlier content to copy from, and
may bring codes and distances of its own.
-/

namespace PixelBlocks.Zstd

/-- What frames may refer to. -/
structure Dictionary where
  /-- The number that frames name the dictionary by, or zero. -/
  number : Nat
  /-- What the first block of a frame builds on. -/
  context : Context

namespace Dictionary

/-- The first bytes of dictionaries with codes. -/
def magic : Nat := 0xec30a437

/-- Nothing to refer to. -/
def none : Dictionary := ⟨0, ⟨.none, .none, .initial, ByteArray.empty⟩⟩

/-- Bytes that are only copied from. -/
def ofContent (content : ByteArray) : Dictionary :=
  ⟨0, ⟨.none, .none, .initial, content⟩⟩

/-- Reads the table of one of the codes of sequences. -/
def readTable? (alphabet : SequenceAlphabet) (source : BitSource) :
    Option (StateTable × BitSource) :=
  alphabet.readTable? 2 .none source

/-- A dictionary with codes: its number, the code of literals, the tables of offsets,
    copy lengths and literal counts, three recent distances, and content. -/
def readCoded? (bytes : ByteArray) : Option Dictionary := do
  let (code, length) ← LiteralCode.read? (bytes.extract 8 bytes.size)
  let (offsets, source) ← readTable? offsetAlphabet ⟨bytes, 8 * (8 + length)⟩
  let (copies, source) ← readTable? copyAlphabet source
  let (literals, source) ← readTable? literalAlphabet source
  let index := source.byteIndex
  let content := bytes.extract (index + 12) bytes.size
  let first := numberAt bytes index 4
  let second := numberAt bytes (index + 4) 4
  let third := numberAt bytes (index + 8) 4
  let usable (distance : Nat) : Bool := 0 < distance && decide (distance ≤ content.size)
  if bytes.size < index + 12 ∨ ¬ (usable first ∧ usable second ∧ usable third) then .none
  else return ⟨numberAt bytes 4 4, ⟨code, some ⟨literals, offsets, copies⟩,
    ⟨first, second, third⟩, content⟩⟩

/-- The dictionary that a byte string holds, if it is well-formed. -/
def read? (bytes : ByteArray) : Option Dictionary :=
  if bytes.size < 8 ∨ numberAt bytes 0 4 ≠ magic then some (ofContent bytes)
  else readCoded? bytes

end Dictionary

/-- What the header of a frame says. -/
structure FrameHeader where
  contentSize : Option Nat
  hasChecksum : Bool
  dictionary : Nat
  /-- No compressed block may take more bytes than this. -/
  largestBlock : Nat
  /-- The index of the first block. -/
  next : Nat

/-- The first bytes of frames. -/
def frameMagic : Nat := 0xfd2fb528

/-- The first bytes of skippable frames, without the lowest four bits. -/
def skippableMagic : Nat := 0x184d2a50

/-- The largest logarithm of a window. -/
def largestWindowLog : Nat := 31

/-- Reads the header of a frame that starts at an index. -/
def readFrameHeader? (bytes : ByteArray) (start : Nat) : Option FrameHeader :=
  let descriptor := (byteAt bytes (start + 4)).toNat
  let single := descriptor / 32 % 2 = 1
  let dictionaryWidth := #[0, 1, 2, 4].getD (descriptor % 4) 0
  let sizeWidth := #[if single then 1 else 0, 2, 4, 8].getD (descriptor / 64) 0
  let windowWidth := if single then 0 else 1
  let dictionaryIndex := start + 5 + windowWidth
  let sizeIndex := dictionaryIndex + dictionaryWidth
  let next := sizeIndex + sizeWidth
  let windowByte := (byteAt bytes (start + 5)).toNat
  let windowLog := windowByte / 8 + 10
  let size := numberAt bytes sizeIndex sizeWidth + (if sizeWidth = 2 then 256 else 0)
  let window :=
    if single then size else (1 <<< windowLog) + (1 <<< windowLog) / 8 * (windowByte % 8)
  if bytes.size < next + 3 ∨ descriptor / 8 % 2 = 1
      ∨ (¬ single ∧ largestWindowLog < windowLog) then none
  else some {
    contentSize := if sizeWidth = 0 then none else some size
    hasChecksum := descriptor / 4 % 2 = 1
    dictionary := numberAt bytes dictionaryIndex dictionaryWidth
    largestBlock := min window largestBlock
    next }

/-- Decodes blocks from an index up to the last one, and returns what they leave
    behind with the index after them. -/
def decodeBlocks (bytes : ByteArray) (largest limit : Nat) :
    (steps : Nat) → (index : Nat) → Context → Option (Context × Nat)
  | 0, _, _ => none
  | steps + 1, index, context => do
    let header := numberAt bytes index 3
    let last := header % 2 = 1
    let kind := header / 2 % 4
    let size := header / 8
    let start := index + 3
    let stored := if kind = 1 then 1 else size
    if bytes.size < start + stored then none
    else
      let next := start + stored
      let context ←
        if kind = 2 then
          if largest < size then none
          else decodeBlock context (bytes.extract start next) limit
        else if kind = 3 ∨ limit < context.history.size + size then none
        else
          let content :=
            if kind = 0 then bytes.extract start next
            else ⟨Array.replicate size (byteAt bytes start)⟩
          some { context with history := context.history ++ content }
      if last then return (context, next)
      else decodeBlocks bytes largest limit steps next context

/-- Decodes a frame at an index to at most `limit` bytes, and returns its content
    with the index after it. -/
def decodeFrame (dictionary : Dictionary) (limit : Nat) (bytes : ByteArray) (start : Nat) :
    Option (ByteArray × Nat) := do
  let header ← readFrameHeader? bytes start
  if header.dictionary ≠ 0 ∧ header.dictionary ≠ dictionary.number then none
  else
    let before := dictionary.context.history.size
    let (context, next) ← decodeBlocks bytes header.largestBlock (before + limit)
      (bytes.size + 1) header.next dictionary.context
    let content := context.history.extract before context.history.size
    if header.contentSize.any (· ≠ content.size) then none
    else if header.hasChecksum then
      if bytes.size < next + 4 ∨ numberAt bytes next 4 ≠ checksum content then none
      else return (content, next + 4)
    else return (content, next)

/-- Decodes frames from an index on, appending their content. Every frame takes
    bytes, so as many steps as there are bytes are enough. -/
def decodeFrames (dictionary : Dictionary) (limit : Nat) (bytes : ByteArray) :
    (steps : Nat) → (index : Nat) → (output : ByteArray) → Option ByteArray
  | 0, _, _ => none
  | steps + 1, index, output =>
    if bytes.size ≤ index then some output
    else
      let magic := numberAt bytes index 4
      if bytes.size < index + 5 then none
      else if magic / 16 * 16 = skippableMagic then
        let next := index + 8 + numberAt bytes (index + 4) 4
        if bytes.size < index + 8 ∨ bytes.size < next then none
        else decodeFrames dictionary limit bytes steps next output
      else if magic = frameMagic then do
        let (content, next) ← decodeFrame dictionary (limit - output.size) bytes index
        decodeFrames dictionary limit bytes steps next (output ++ content)
      else none

/-- The content of all frames of a byte string, of at most `limit` bytes. -/
def decompress (dictionary : Dictionary) (limit : Nat) (bytes : ByteArray) : Option ByteArray :=
  decodeFrames dictionary limit bytes (bytes.size + 1) 0 ByteArray.empty

end PixelBlocks.Zstd

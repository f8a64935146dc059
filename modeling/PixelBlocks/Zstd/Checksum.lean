import PixelBlocks.Bits.Backward

/-!
# Checksum of frames

The checksum of a frame is the low half of a 64-bit hash of its content. The hash
mixes stripes of 32 bytes in four lanes, joins the lanes, and then mixes the
remaining bytes in groups of eight, four and one.
-/

namespace PixelBlocks.Zstd

namespace Hash

/-- The multipliers of the hash. -/
def prime1 : UInt64 := 11400714785074694791
/-- The second multiplier. -/
def prime2 : UInt64 := 14029467366897019727
/-- The third multiplier. -/
def prime3 : UInt64 := 1609587929392839161
/-- The fourth multiplier. -/
def prime4 : UInt64 := 9650029242287828579
/-- The fifth multiplier. -/
def prime5 : UInt64 := 2870177450012600261

/-- Rotates the bits of a word to the left. -/
def rotate (word : UInt64) (places : UInt64) : UInt64 :=
  (word <<< places) ||| (word >>> (64 - places))

/-- Mixes eight bytes into a lane. -/
def mixLane (lane input : UInt64) : UInt64 :=
  rotate (lane + input * prime2) 31 * prime1

/-- Mixes a finished lane into the hash. -/
def joinLane (hash lane : UInt64) : UInt64 :=
  (hash ^^^ mixLane 0 lane) * prime1 + prime4

/-- The four lanes of the hash. -/
structure Lanes where
  first : UInt64
  second : UInt64
  third : UInt64
  fourth : UInt64

/-- Mixes stripes of 32 bytes into the lanes. -/
def mixStripes (bytes : ByteArray) : (stripes : Nat) → (index : Nat) → Lanes → Lanes
  | 0, _, lanes => lanes
  | stripes + 1, index, lanes =>
    mixStripes bytes stripes (index + 32)
      ⟨mixLane lanes.first (BackwardBits.wordAt bytes index),
        mixLane lanes.second (BackwardBits.wordAt bytes (index + 8)),
        mixLane lanes.third (BackwardBits.wordAt bytes (index + 16)),
        mixLane lanes.fourth (BackwardBits.wordAt bytes (index + 24))⟩

/-- Joins the lanes after the last stripe. -/
def joinLanes (lanes : Lanes) : UInt64 :=
  let sum := rotate lanes.first 1 + rotate lanes.second 7
    + rotate lanes.third 12 + rotate lanes.fourth 18
  [lanes.first, lanes.second, lanes.third, lanes.fourth].foldl joinLane sum

/-- Mixes groups of eight bytes into the hash. -/
def mixWords (bytes : ByteArray) : (words : Nat) → (index : Nat) → UInt64 → UInt64
  | 0, _, hash => hash
  | words + 1, index, hash =>
    let mixed := hash ^^^ mixLane 0 (BackwardBits.wordAt bytes index)
    mixWords bytes words (index + 8) (rotate mixed 27 * prime1 + prime4)

/-- Mixes a group of four bytes into the hash. -/
def mixHalfWord (bytes : ByteArray) (index : Nat) (hash : UInt64) : UInt64 :=
  let input := BackwardBits.wordAt bytes index &&& 0xffffffff
  rotate (hash ^^^ (input * prime1)) 23 * prime2 + prime3

/-- Mixes single bytes into the hash. -/
def mixBytes (bytes : ByteArray) : (count : Nat) → (index : Nat) → UInt64 → UInt64
  | 0, _, hash => hash
  | count + 1, index, hash =>
    let mixed := hash ^^^ ((byteAt bytes index).toUInt64 * prime5)
    mixBytes bytes count (index + 1) (rotate mixed 11 * prime1)

/-- Spreads every bit over the whole word. -/
def avalanche (hash : UInt64) : UInt64 :=
  let hash := (hash ^^^ (hash >>> 33)) * prime2
  let hash := (hash ^^^ (hash >>> 29)) * prime3
  hash ^^^ (hash >>> 32)

end Hash

open Hash in
/-- The 64-bit hash of a byte string. -/
def hash (bytes : ByteArray) : UInt64 :=
  let size := bytes.size
  let stripes := size / 32
  let start :=
    if stripes = 0 then prime5
    else joinLanes (mixStripes bytes stripes 0 ⟨prime1 + prime2, prime2, 0, 0 - prime1⟩)
  let start := start + UInt64.ofNat size
  let words := size % 32 / 8
  let wordsEnd := 32 * stripes + 8 * words
  let mixed := mixWords bytes words (32 * stripes) start
  if 4 ≤ size - wordsEnd then
    avalanche (mixBytes bytes (size - wordsEnd - 4) (wordsEnd + 4) (mixHalfWord bytes wordsEnd mixed))
  else avalanche (mixBytes bytes (size - wordsEnd) wordsEnd mixed)

/-- The checksum at the end of a frame. -/
def checksum (content : ByteArray) : Nat :=
  (hash content).toNat % 0x100000000

end PixelBlocks.Zstd

import PixelBlocks.Bits.Source

/-!
# Repeats in byte strings

A byte string is cut into literal bytes and copies of earlier bytes. A copy may
overlap the bytes that it produces, so a run is a literal followed by a copy from
a distance of one. Earlier occurrences are found through chains of places whose
next bytes have the same hash. A copy is not always taken where it is found first:
one byte later there may be a better one.
-/

namespace PixelBlocks

/-- A literal byte, or a copy of bytes a distance back. -/
inductive Token
  | literal (byte : UInt8)
  | copy (length : Nat) (distance : Nat)
  deriving Repr

namespace Repeats

/-- Which copies an encoder can write. -/
structure Limits where
  shortest : Nat
  longest : Nat
  farthest : Nat

/-- When the copy at the next place is preferred to the one at hand. -/
inductive Lookahead
  /-- Never. -/
  | off
  /-- If it is longer. -/
  | longer
  /-- If it reaches the end, and starts with more than eight bytes left. -/
  | finishing
  deriving DecidableEq, Repr

/-- How thoroughly copies are searched. -/
structure Search where
  /-- Copies come from no place before this one. -/
  earliest : Nat
  /-- How many places of a chain are tried. -/
  depth : Nat
  lookahead : Lookahead
  /-- Copies longer than this are taken without looking ahead. -/
  patience : Nat

/-- Places by the hash of their next bytes, each as its number plus one. -/
structure Chains where
  /-- The last place with a hash. -/
  heads : Array Nat
  /-- For each place the one before it with the same hash. -/
  links : Array Nat

/-- How many hashes there are. -/
def hashes : Nat := 8192

/-- A hash of the four bytes from a place on, or of three if copies may be that
    short. -/
def hashAt (limits : Limits) (bytes : ByteArray) (place : Nat) : Nat :=
  let first := (byteAt bytes place).toUInt32
  let second := (byteAt bytes (place + 1)).toUInt32 <<< 8
  let third := (byteAt bytes (place + 2)).toUInt32 <<< 16
  let fourth : UInt32 := if limits.shortest < 4 then 0 else (byteAt bytes (place + 3)).toUInt32 <<< 24
  (((first ||| second ||| third ||| fourth) * 2654435761) >>> 19).toNat

/-- Adds a place to the chain of its hash. -/
def insert (limits : Limits) (bytes : ByteArray) (chains : Chains) (place : Nat) : Chains :=
  if place + limits.shortest ≤ bytes.size then
    let hash := hashAt limits bytes place
    let earlier := chains.heads.getD hash 0
    ⟨chains.heads.setIfInBounds hash (place + 1), chains.links.setIfInBounds place earlier⟩
  else chains

/-- Adds consecutive places. -/
def insertAll (limits : Limits) (bytes : ByteArray) : (count : Nat) → (place : Nat) → Chains → Chains
  | 0, _, chains => chains
  | count + 1, place, chains =>
    insertAll limits bytes count (place + 1) (insert limits bytes chains place)

/-- How many bytes from two places on are equal, up to a limit. -/
def commonLength (bytes : ByteArray) (first second : Nat) : (limit : Nat) → (found : Nat) → Nat
  | 0, found => found
  | limit + 1, found =>
    if byteAt bytes (first + found) == byteAt bytes (second + found)
    then commonLength bytes first second limit (found + 1)
    else found

/-- The longest copy among the next places of a chain, as length and distance. -/
def longestCopy (limits : Limits) (earliest : Nat) (bytes : ByteArray) (links : Array Nat)
    (place : Nat) :
    (steps : Nat) → (candidate : Nat) → (best : Nat × Nat) → Nat × Nat
  | 0, _, best => best
  | _, 0, best => best
  | steps + 1, candidate + 1, best =>
    let distance := place - candidate
    let limit := min limits.longest (bytes.size - place)
    if limits.farthest < distance ∨ candidate < earliest ∨ limit ≤ best.1 then best
    else
      let length := commonLength bytes candidate place limit 0
      let better := if best.1 < length then (length, distance) else best
      longestCopy limits earliest bytes links place steps (links.getD candidate 0) better

/-- The longest copy at a place, as length and distance, or none. -/
def copyAt (limits : Limits) (search : Search) (bytes : ByteArray) (chains : Chains)
    (place : Nat) : Option (Nat × Nat) :=
  if bytes.size < place + limits.shortest then none
  else
    let candidate := chains.heads.getD (hashAt limits bytes place) 0
    let best := longestCopy limits search.earliest bytes chains.links place search.depth
      candidate (0, 0)
    if best.1 < limits.shortest then none else some best

/-- The copy at the next place that is preferred to one of the given length. -/
def preferredNext (limits : Limits) (search : Search) (bytes : ByteArray) (chains : Chains)
    (place length : Nat) : Option (Nat × Nat) :=
  if search.patience < length then none
  else
    match search.lookahead with
    | .off => none
    | .longer => (copyAt limits search bytes chains (place + 1)).filter (length < ·.1)
    | .finishing =>
      if bytes.size < place + 9 then none
      else (copyAt limits search bytes chains (place + 1)).filter fun next =>
        place + 1 + next.1 == bytes.size

/-- The tokens from a place on, after the given ones. Every token covers at least
    one byte, so as many steps as there are bytes left are enough. A preferred copy
    that is only longer is found again at its own place, where the next one may be
    longer still. -/
def tokensFrom (limits : Limits) (search : Search) (bytes : ByteArray) :
    (steps : Nat) → (place : Nat) → Chains → (tokens : Array Token) → Array Token
  | 0, _, _, tokens => tokens
  | steps + 1, place, chains, tokens =>
    if bytes.size ≤ place then tokens
    else
      let literal := Token.literal (byteAt bytes place)
      let found := copyAt limits search bytes chains place
      let following := insert limits bytes chains place
      match found with
      | none => tokensFrom limits search bytes steps (place + 1) following (tokens.push literal)
      | some (length, distance) =>
        match preferredNext limits search bytes following place length with
        | none =>
          tokensFrom limits search bytes steps (place + length)
            (insertAll limits bytes (length - 1) (place + 1) following)
            (tokens.push (.copy length distance))
        | some (nextLength, nextDistance) =>
          if search.lookahead = .finishing then
            (tokens.push literal).push (.copy nextLength nextDistance)
          else
            tokensFrom limits search bytes steps (place + 1) following (tokens.push literal)

/-- The tokens of a byte string. -/
def tokens (limits : Limits) (search : Search) (bytes : ByteArray) : Array Token :=
  let chains : Chains := ⟨Array.replicate hashes 0, Array.replicate bytes.size 0⟩
  tokensFrom limits search bytes bytes.size 0 chains #[]

/-- Appends bytes from a distance back, one after another. -/
def appendCopy (distance : Nat) : (length : Nat) → ByteArray → ByteArray
  | 0, output => output
  | length + 1, output =>
    appendCopy distance length (output.push (byteAt output (output.size - distance)))

end Repeats

end PixelBlocks

import PixelBlocks.Bits.Backward

/-!
# State tables

Symbols of sequences and of code weights are coded by the states of a table. Each
state stands for a symbol and says how many bits to read for the next state and
where the range of next states begins. A table follows from a distribution, which
gives every symbol a share of the states; the share -1 means less than one state.
-/

namespace PixelBlocks.Zstd

/-- A state: its symbol and the range of the states that may follow it. -/
structure CodeState where
  symbol : Nat
  width : Nat
  base : Nat
  deriving Repr, Inhabited

/-- The states of a code, of which there are `2 ^ log`. -/
structure StateTable where
  log : Nat
  states : Array CodeState
  deriving Repr, Inhabited

/-- The shares of symbols in the states of a table. -/
structure Distribution where
  log : Nat
  shares : Array Int
  deriving Repr, Inhabited

namespace Distribution

/-- Reads how many zero shares follow a zero share: three at a time, as long as
    the field says so. -/
def readZeroRun : (steps : Nat) → (count : Nat) → BitSource → Option (Nat × BitSource)
  | 0, _, _ => none
  | steps + 1, count, source => do
    let (more, source) ← BitSource.field? 2 source
    if more = 3 then readZeroRun steps (count + 3) source else return (count + more, source)

/-- Reads one share when `remaining - 1` states are not given out yet. Small numbers
    take one bit less. -/
def readShare (remaining : Nat) (source : BitSource) : Option (Int × BitSource) := do
  let width := Nat.log2 remaining
  let threshold := 1 <<< width
  let spare := 2 * threshold - 1 - remaining
  let (low, source) ← BitSource.field? width source
  if low < spare then return ((low : Int) - 1, source)
  else
    let (high, source) ← BitSource.field? 1 source
    let value := low + high * threshold
    let value := if threshold ≤ value then value - spare else value
    return ((value : Int) - 1, source)

/-- Reads shares until all states are given out. -/
def readShares (symbols : Nat) :
    (steps : Nat) → (remaining : Nat) → (shares : Array Int) → BitSource →
    Option (Array Int × BitSource)
  | 0, _, _, _ => none
  | steps + 1, remaining, shares, source =>
    if remaining ≤ 1 then
      if remaining = 1 then some (shares, source) else none
    else if symbols ≤ shares.size then none
    else do
      let (share, source) ← readShare remaining source
      let remaining := remaining - share.natAbs
      let shares := shares.push share
      if share = 0 then
        let (zeroes, source) ← readZeroRun source.remaining 0 source
        if symbols < shares.size + zeroes then none
        else
          readShares symbols steps remaining (shares ++ Array.replicate zeroes 0) source
      else readShares symbols steps remaining shares source

/-- Reads a distribution over at most the given number of symbols, which ends at a
    whole byte. -/
def read? (longestLog symbols : Nat) (source : BitSource) :
    Option (Distribution × BitSource) := do
  let (logExcess, source) ← BitSource.field? 4 source
  let log := logExcess + 5
  if longestLog < log then none
  else
    let (shares, source) ← readShares symbols (symbols + 1) ((1 <<< log) + 1) #[] source
    return (⟨log, shares⟩, source.align)

end Distribution

namespace StateTable

/-- The state after a position when symbols are spread over the states. -/
def nextPosition (size position : Nat) : Nat :=
  (position + size / 2 + size / 8 + 3) % size

/-- The first position from the given one on that is not reserved at the end. -/
def freePosition (size reservedFrom : Nat) : (steps : Nat) → (position : Nat) → Nat
  | 0, position => position
  | steps + 1, position =>
    if position < reservedFrom then position
    else freePosition size reservedFrom steps (nextPosition size position)

/-- Gives a symbol the given number of states. -/
def spreadSymbol (size reservedFrom symbol : Nat) :
    (share : Nat) → (position : Nat) → (symbols : Array Nat) → Nat × Array Nat
  | 0, position, symbols => (position, symbols)
  | share + 1, position, symbols =>
    let symbols := symbols.setIfInBounds position symbol
    let position := freePosition size reservedFrom size (nextPosition size position)
    spreadSymbol size reservedFrom symbol share position symbols

/-- Spreads all symbols with whole shares over the states that are not reserved. -/
def spreadAll (size reservedFrom : Nat) :
    (shares : List (Int × Nat)) → (position : Nat) → (symbols : Array Nat) → Array Nat
  | [], _, symbols => symbols
  | (share, symbol) :: rest, position, symbols =>
    let (position, symbols) :=
      spreadSymbol size reservedFrom symbol share.toNat position symbols
    spreadAll size reservedFrom rest position symbols

/-- Gives the symbols with less than one state the last states, from the end
    downwards. Returns the first of these states. -/
def reserve : (shares : List (Int × Nat)) → (reservedFrom : Nat) → (symbols : Array Nat) →
    Nat × Array Nat
  | [], reservedFrom, symbols => (reservedFrom, symbols)
  | (share, symbol) :: rest, reservedFrom, symbols =>
    if share = -1 then
      reserve rest (reservedFrom - 1) (symbols.setIfInBounds (reservedFrom - 1) symbol)
    else reserve rest reservedFrom symbols

/-- Numbers the states of each symbol and derives their ranges. -/
def numberStates (log : Nat) :
    (symbols : List Nat) → (next : Array Nat) → (states : Array CodeState) → Array CodeState
  | [], _, states => states
  | symbol :: rest, next, states =>
    let number := next.getD symbol 1
    let width := log - Nat.log2 number
    let state := ⟨symbol, width, (number <<< width) - (1 <<< log)⟩
    numberStates log rest (next.setIfInBounds symbol (number + 1)) (states.push state)

/-- The table of a distribution. -/
def ofDistribution (distribution : Distribution) : StateTable :=
  let size := 1 <<< distribution.log
  let shares := distribution.shares.toList.zipIdx
  let (reservedFrom, symbols) := reserve shares size (Array.replicate size 0)
  let symbols := spreadAll size reservedFrom shares 0 symbols
  let next := distribution.shares.map Int.natAbs
  ⟨distribution.log, numberStates distribution.log symbols.toList next #[]⟩

/-- The table of one state, which always stands for the same symbol. -/
def constant (symbol : Nat) : StateTable := ⟨0, #[⟨symbol, 0, 0⟩]⟩

/-- The state with a number. -/
def state (table : StateTable) (number : Nat) : CodeState :=
  table.states.getD number default

/-- Reads the first state. -/
def start (table : StateTable) (bits : BackwardBits) : CodeState × BackwardBits :=
  let (number, bits) := bits.field table.log
  (table.state number, bits)

/-- Reads the state that follows a state. -/
def advance (table : StateTable) (current : CodeState) (bits : BackwardBits) :
    CodeState × BackwardBits :=
  let (offset, bits) := bits.field current.width
  (table.state (current.base + offset), bits)

end StateTable

end PixelBlocks.Zstd

/-!
# Writing bits

Bits fill each byte from its lowest bit upwards, and a field of several bits
starts with its lowest bit. Fewer than eight bits wait for their byte to be full.
-/

namespace PixelBlocks

/-- Whole bytes written so far, and the bits that wait for the next byte. -/
structure BitSink where
  bytes : ByteArray
  pending : UInt64
  count : Nat

namespace BitSink

/-- Nothing written. -/
def empty : BitSink := ⟨ByteArray.empty, 0, 0⟩

/-- Moves whole bytes out of the waiting bits. -/
def drain : (whole : Nat) → BitSink → BitSink
  | 0, sink => sink
  | whole + 1, sink =>
    drain whole ⟨sink.bytes.push sink.pending.toUInt8, sink.pending >>> 8, sink.count - 8⟩

/-- Writes a field of at most 56 bits, whose value has no higher bits. -/
def put (sink : BitSink) (value width : Nat) : BitSink :=
  let pending := sink.pending ||| (UInt64.ofNat value <<< UInt64.ofNat sink.count)
  let count := sink.count + width
  drain (count / 8) ⟨sink.bytes, pending, count⟩

/-- Fills the last byte with zero bits. -/
def align (sink : BitSink) : BitSink :=
  if sink.count = 0 then sink else ⟨sink.bytes.push sink.pending.toUInt8, 0, 0⟩

/-- Appends whole bytes after filling the last byte. -/
def putBytes (sink : BitSink) (bytes : ByteArray) : BitSink :=
  let sink := sink.align
  { sink with bytes := sink.bytes ++ bytes }

/-- The written bytes, the last one filled with zero bits. -/
def finish (sink : BitSink) : ByteArray := sink.align.bytes

-- Six bits fill most of a byte.
example : ((empty.put 5 3).put 6 3).finish = ByteArray.mk #[53] := by decide

end BitSink

end PixelBlocks

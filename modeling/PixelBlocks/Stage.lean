import PixelBlocks.Chunk

/-!
# Stages with buffers of the caller

A caller that manages its own buffers compresses packed halves into the start of
one buffer and decompresses a chunk into another. Either the stage succeeds and
says how many bytes it wrote, or it fails and leaves the buffer alone.
-/

namespace PixelBlocks

/-- Why a stage failed. -/
inductive StageFault
  /-- Compression failed or its result does not fit. -/
  | failed (cause : Fault)
  /-- The chunk does not hold the bytes that the buffer expects. -/
  | corrupt (cause : Fault)
  deriving DecidableEq, Repr

namespace StageFault

/-- The fault behind the failure. -/
def cause : StageFault → Fault
  | failed cause => cause
  | corrupt cause => cause

/-- The failure in words. -/
def message : StageFault → String
  | failed cause => "pipeline step failed: " ++ cause.message
  | corrupt cause => "corrupt chunk: " ++ cause.message

end StageFault

namespace Stage

/-- Packed buffers hold samples of this many bytes. -/
def typeSize : Nat := 2

/-- A buffer whose start is replaced by the given bytes. -/
def fillStart (bytes buffer : Bytes) : Bytes :=
  bytes ++ buffer.drop bytes.length

/-- The chunk of a packed buffer, if it fits into the room. -/
def chunkFor (coders : Coders) (packed : Bytes) (room : Nat) (level : UInt8) :
    Except StageFault Bytes :=
  match Chunk.encode coders (.shuffle typeSize level) packed with
  | .error cause => .error (.failed cause)
  | .ok chunk =>
    if chunk.isEmpty ∨ room < chunk.length then
      .error (.failed (.capacity (.chunkRoom chunk.length room)))
    else .ok chunk

/-- Compresses a packed buffer into the start of another, and returns how many
    bytes were written together with the buffer afterwards. -/
def apply (coders : Coders) (defaults : Defaults) (packed buffer : Bytes)
    (level : Option UInt8) : Except StageFault Nat × Bytes :=
  match chunkFor coders packed buffer.length (level.getD defaults.zstd) with
  | .error fault => (.error fault, buffer)
  | .ok chunk => (.ok chunk.length, fillStart chunk buffer)

/-- Decompresses a chunk into a buffer of exactly its size. -/
def undo (coders : Coders) (compressed buffer : Bytes) : Except StageFault Nat × Bytes :=
  match Chunk.decode coders compressed buffer.length with
  | .error cause => (.error (.corrupt cause), buffer)
  | .ok bytes => (.ok bytes.length, fillStart bytes buffer)

end Stage

end PixelBlocks

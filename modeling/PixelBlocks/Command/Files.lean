import PixelBlocks.Batch
import PixelBlocks.Command.Quoted
import PixelBlocks.Command.Texts

/-!
# Files of size-prefixed blocks

A raw file holds the samples of all blocks of a layer one after another. A
compressed file holds every block as its size in four bytes and its bytes. Both are
cut into blocks by the layer alone, so nothing in a compressed file says how many
blocks there are.
-/

namespace PixelBlocks.Command

/-- Why a request failed: a message, and the cause behind it if there is one. -/
structure Failure where
  message : String
  cause : Option String
  deriving DecidableEq, Repr

namespace Failure

/-- A failure without a cause behind it. -/
def ofMessage (message : String) : Failure := ⟨message, none⟩

/-- A fault of the library as a failure. -/
def ofFault (fault : Fault) : Failure := ofMessage fault.message

/-- What the tool prints about a failure. -/
def text (failure : Failure) : String :=
  match failure.cause with
  | none => "Error: " ++ failure.message ++ "\n"
  | some cause => "Error: " ++ failure.message ++ "\n\nCaused by:\n    " ++ cause ++ "\n"

end Failure

/-- The result of a request. -/
abbrev Result := Except Failure

/-- An outcome of the library as a result. -/
def Result.ofOutcome {α : Type} (outcome : Outcome α) : Result α :=
  outcome.mapError Failure.ofFault

/-- The channel of an argument: a name and a type around the first colon. -/
def readChannel (argument : String) : Result Channel :=
  let characters := argument.toList
  let name := characters.takeWhile (· != ':')
  match characters.drop name.length with
  | [] =>
    .error (.ofMessage ("channel \"" ++ argument ++ "\" is not of the form name:type"))
  | _ :: typeName =>
    match SampleType.ofName? (String.ofList typeName) with
    | some type => .ok (Channel.full (String.ofList name) type)
    | none =>
      .error (.ofMessage ("unknown sample type \"" ++ String.ofList typeName
        ++ "\" (expected half, float or uint)"))

/-- Channels in the order of their names. Equal names keep their order. -/
def sortChannels (channels : ChannelList) : ChannelList :=
  channels.mergeSort fun first second => first.name.compare second.name != .gt

/-- The layer that arguments describe. -/
def LayerArguments.layer (arguments : LayerArguments) : Result Layer := do
  let method ← Result.ofOutcome (Method.ofName arguments.codec)
  let channels ← arguments.channels.mapM readChannel
  let layer : Layer :=
    { channels := sortChannels channels
      method
      window := .ofSize ⟨UInt64.ofNat arguments.width, UInt64.ofNat arguments.height⟩
      partition := .scanLines
      deep := false
      zstdLevel := arguments.zstdLevel }
  Result.ofOutcome layer.validate
  return layer

/-- How many blocks the window of a layer has. The sum that rounds upwards is a
    64-bit word. -/
def blockCount (layer : Layer) : Nat :=
  let lines := UInt64.ofNat layer.method.scanLines
  ((layer.window.size.y + lines - 1) / lines).toNat

/-- The first row of the block with a number. -/
def blockOrigin (layer : Layer) (index : Nat) : Int32 :=
  layer.window.position.y + Int32.ofNat (index * layer.method.scanLines)

/-- The first rows of all blocks. -/
def blockOrigins (layer : Layer) : List Int32 :=
  (List.range (blockCount layer)).map (blockOrigin layer)

/-- The rectangle of the block that starts at a row. -/
def blockBounds (layer : Layer) (row : Int32) : Rectangle :=
  let offset := (row - layer.window.position.y).toInt.toNat
  let height := min (layer.window.size.y.toNat - offset) layer.method.scanLines
  ⟨⟨layer.window.position.x, row⟩, ⟨layer.window.size.x, UInt64.ofNat height⟩⟩

/-- Cuts raw bytes into the blocks that start at the given rows. -/
def cutRaw (layer : Layer) : List Int32 → Bytes → Result (List ScanLineBlock)
  | [], _ => .ok []
  | row :: rows, raw => do
    let size ← Result.ofOutcome (layer.channels.byteSize (blockBounds layer row))
    let others ← cutRaw layer rows (raw.drop size)
    return ⟨row, raw.take size⟩ :: others

/-- The compressed file of a raw file. -/
def compressFile (coders : Coders) (schedule : Schedule) (layer : Layer) (input : String)
    (raw : Bytes) : Result Bytes := do
  let expected ← Result.ofOutcome (layer.channels.byteSize layer.window)
  if raw.length ≠ expected then
    .error (.ofMessage (quoted input ++ " contains " ++ toString raw.length
      ++ " bytes, but the layer requires " ++ toString expected ++ " bytes"))
  else
    let blocks ← cutRaw layer (blockOrigins layer) raw
    let stored ← Result.ofOutcome (Batch.compress coders schedule .initial layer blocks)
    let sized ← Result.ofOutcome (stored.mapM Scalar.uint8.encodeSized)
    return sized.flatten

/-- Cuts a compressed file into the given number of blocks, counted from a number
    on. -/
def cutStored (layer : Layer) : (count : Nat) → (index : Nat) → Bytes →
    Result (List ScanLineBlock)
  | 0, _, [] => .ok []
  | 0, _, file =>
    .error (.ofMessage (toString file.length ++ " unexpected bytes after the last block"))
  | count + 1, index, file =>
    match Scalar.int32.read file with
    | .error fault => .error ⟨"reading block size", some fault.message⟩
    | .ok (size, rest) =>
      let length := Int32.toInt size
      if length < 0 then .error (.ofMessage ("negative block size " ++ toString length))
      else
        let row := blockOrigin layer index
        let bytes := rest.take length.toNat
        if bytes.length < length.toNat then
          .error (.ofMessage ("block at y = " ++ toString row.toInt ++ " is truncated"))
        else do
          let others ← cutStored layer count (index + 1) (rest.drop length.toNat)
          return ⟨row, bytes⟩ :: others

/-- The raw file of a compressed file. -/
def decompressFile (coders : Coders) (schedule : Schedule) (layer : Layer) (file : Bytes) :
    Result Bytes := do
  let blocks ← cutStored layer (blockCount layer) 0 file
  let raw ← Result.ofOutcome (Batch.uncompress coders schedule .initial layer blocks)
  return raw.flatten

end PixelBlocks.Command

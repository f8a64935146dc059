import PixelBlocks.Geometry.Rectangle
import PixelBlocks.Geometry.FloorDivision

/-!
# Channels

A channel describes the samples of one quantity of a layer. With sampling
factors other than one it has samples only at pixels whose coordinates are
multiples of the factors. A block stores its samples row by row, and within each
row channel by channel.
-/

namespace PixelBlocks

/-- One channel of a layer. -/
structure Channel where
  name : Name
  type : SampleType
  /-- Whether lossy methods should quantize this channel linearly. -/
  linear : Bool
  /-- How many columns and rows lie between two samples. -/
  sampling : Pair UInt64
  deriving DecidableEq, Repr, Inhabited

namespace Channel

/-- A channel with a sample at every pixel. -/
def full (name : String) (type : SampleType) : Channel :=
  ⟨Name.ofString name, type, false, ⟨1, 1⟩⟩

/-- The number of samples on both axes of an area of the given size. -/
def resolution (channel : Channel) (size : Pair UInt64) : Outcome (Pair UInt64) :=
  if channel.sampling.x = 0 ∨ channel.sampling.y = 0 then .error .divisionByZero
  else .ok ⟨size.x / channel.sampling.x, size.y / channel.sampling.y⟩

/-- How many samples a row of the rectangle holds: none if vertical sampling
    skips the row. -/
def samplesInRow (channel : Channel) (row : Int32) (bounds : Rectangle) : Outcome Nat :=
  if 0x80000000 ≤ channel.sampling.y.toNat then .error (.invalid .channelSampling)
  else if channel.sampling.y = 0 then .error .divisionByZero
  else if floorRemainder row (Int32.ofNat channel.sampling.y.toNat) ≠ 0 then .ok 0
  else do
    let resolution ← channel.resolution bounds.size
    return resolution.x.toNat

/-- Whether the sampling factor of one axis divides a signed 64-bit word. -/
def divides (factor : UInt64) (word : Int64) : Bool :=
  word % factor.toInt64 == 0

/-- Accepts sampling factors that divide the window, and only factors of one
    where subsampling is not allowed. -/
def validate (channel : Channel) (allowSampling : Bool) (window : Rectangle) : Outcome Unit :=
  if channel.sampling.x = 0 ∨ channel.sampling.y = 0 then
    .error (.configuration .zeroSampling)
  else if ¬ allowSampling ∧ channel.sampling ≠ ⟨1, 1⟩ then
    .error (.configuration .subsamplingForbidden)
  else if ¬ (divides channel.sampling.x window.position.x.toInt64
      ∧ divides channel.sampling.y window.position.y.toInt64) then
    .error (.configuration .samplingOfPosition)
  else if ¬ (divides channel.sampling.x window.size.x.toInt64
      ∧ divides channel.sampling.y window.size.y.toInt64) then
    .error (.configuration .samplingOfSize)
  else .ok ()

end Channel

/-- The channels of a layer, in the order in which blocks store them. A list is made of its
    channels and of nothing else: how many bytes a pixel has, and which type all channels
    share, is always what the channels say. -/
abbrev ChannelList := List Channel

namespace ChannelList

/-- The bytes of one sample of every channel. -/
def bytesPerPixel : ChannelList → Nat
  | [] => 0
  | channel :: others => channel.type.byteSize + bytesPerPixel others

/-- The sample type of all channels, if they share one. -/
def uniformType? (channels : ChannelList) : Option SampleType :=
  match channels with
  | [] => none
  | first :: rest =>
    if rest.all fun channel => channel.type == first.type then some first.type else none

/-- Adds the bytes of one row of one channel to a size. -/
def addRow (bounds : Rectangle) (row : Int32) (total : Nat) (channel : Channel) : Outcome Nat := do
  let samples ← channel.samplesInRow row bounds
  match (Size.mul? samples channel.type.byteSize).bind (Size.add? total) with
  | some total => .ok total
  | none => .error (.capacity .blockSize)

/-- Adds the bytes of consecutive rows to a size, stopping at the first row that
    has no size. -/
def addRows (channels : ChannelList) (bounds : Rectangle) :
    (count : Nat) → (row : Int32) → (total : Nat) → Outcome Nat
  | 0, _, total => .ok total
  | count + 1, row, total =>
    match channels.foldlM (addRow bounds row) total with
    | .error fault => .error fault
    | .ok total => addRows channels bounds count (row + 1) total

/-- How many bytes the samples within a rectangle take. -/
def byteSize (channels : ChannelList) (bounds : Rectangle) : Outcome Nat := do
  let _ ← bounds.opposite
  addRows channels bounds bounds.size.y.toNat bounds.position.y 0

/-- Checks the remaining channels in order against the name before them. -/
def validateAfter (allowSampling : Bool) (window : Rectangle) :
    (previous : Name) → (channels : ChannelList) → Outcome Unit
  | _, [] => .ok ()
  | previous, channel :: rest => do
    channel.validate allowSampling window
    match previous.compare channel.name with
    | .eq => .error (.configuration .repeatedChannel)
    | .gt => .error (.configuration .unsortedChannels)
    | .lt => validateAfter allowSampling window channel.name rest

/-- Accepts non-empty lists of valid channels whose names increase. -/
def validate (channels : ChannelList) (allowSampling : Bool) (window : Rectangle) :
    Outcome Unit :=
  match channels with
  | [] => .error (.configuration .noChannel)
  | first :: rest => do
    first.validate allowSampling window
    validateAfter allowSampling window first.name rest

end ChannelList

end PixelBlocks

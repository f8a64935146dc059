import PixelBlocks.Layer.Channel
import PixelBlocks.Scalar.Stream
import PixelBlocks.Transform.Rounding

/-!
# Planes of pixel differences

Every row of a channel becomes a row of differences between neighbouring pixels,
cut into byte planes with the most significant plane first. Halves have two
planes and integers four. Floats are rounded to 24 bits first and have three.
Differences wrap around, so integration brings back every pixel.
-/

namespace PixelBlocks.Planes

/-- How many byte planes the differences of a sample type have. -/
def planeCount : SampleType → Nat
  | .half => 2
  | .float => 3
  | .uint => 4

/-- The samples of one channel in one row. -/
structure Segment where
  type : SampleType
  samples : Nat
  deriving DecidableEq, Repr

/-- The segments of one row, one for each channel. -/
def rowSegments (bounds : Rectangle) (row : Int32) (channels : ChannelList) :
    Outcome (List Segment) :=
  channels.mapM fun channel => do
    let samples ← channel.samplesInRow row bounds
    return ⟨channel.type, samples⟩

/-- The segments of consecutive rows. -/
def segmentsFrom (channels : ChannelList) (bounds : Rectangle) :
    (count : Nat) → (row : Int32) → Outcome (List Segment)
  | 0, _ => .ok []
  | count + 1, row => do
    let here ← rowSegments bounds row channels
    let below ← segmentsFrom channels bounds count (row + 1)
    return here ++ below

/-- The segments of a block in the order in which it stores them. -/
def segments (channels : ChannelList) (bounds : Rectangle) : Outcome (List Segment) := do
  let _ ← bounds.opposite
  segmentsFrom channels bounds bounds.size.y.toNat bounds.position.y

/-- The numbers that consecutive groups of bytes spell. -/
def groups (width : Nat) : (count : Nat) → Bytes → List Nat
  | 0, _ => []
  | count + 1, bytes =>
    ofLittleEndian (bytes.take width) :: groups width count (bytes.drop width)

/-- The integer that stands for a stored sample. -/
def pixelOf (type : SampleType) (bits : Nat) : UInt32 :=
  match type with
  | .float => Rounding.to24 (UInt32.ofNat bits)
  | .half | .uint => UInt32.ofNat bits

/-- Each number less the one before it, starting from zero. -/
def differences (pixels : List UInt32) : List UInt32 :=
  List.zipWith (· - ·) pixels (0 :: pixels)

/-- One byte plane of numbers: their byte at a place, counted from the highest of
    the given number of planes. -/
def planeOf (count place : Nat) (numbers : List UInt32) : Bytes :=
  numbers.map fun number => (number >>> UInt32.ofNat (8 * (count - 1 - place))).toUInt8

/-- All byte planes of numbers. -/
def split (count : Nat) (numbers : List UInt32) : Bytes :=
  (List.range count).flatMap fun place => planeOf count place numbers

/-- The planes of one segment, whose sample bytes are given. -/
def encodeSegment (segment : Segment) (bytes : Bytes) : Bytes :=
  let pixels := (groups segment.type.byteSize segment.samples bytes).map (pixelOf segment.type)
  split (planeCount segment.type) (differences pixels)

/-- The planes of all segments of a block. -/
def encode : List Segment → Bytes → Outcome Bytes
  | [], [] => .ok []
  | [], _ :: _ => .error (.invalid .planesExcessInput)
  | segment :: others, bytes => do
    let (front, rest) ← Scalar.takeBytes (segment.samples * segment.type.byteSize) bytes
    let planes ← encode others rest
    return encodeSegment segment front ++ planes

/-- The number whose bytes at one index of each plane are given, highest plane
    first. -/
def join (table : Array UInt8) (count samples index : Nat) : UInt32 :=
  (List.range count).foldl
    (fun number place => (number <<< 8) ||| (table.getD (place * samples + index) 0).toUInt32) 0

/-- The running sums of numbers. -/
def sums : (total : UInt32) → List UInt32 → List UInt32
  | _, [] => []
  | total, number :: rest => (total + number) :: sums (total + number) rest

/-- The difference as it is added to the stored bits of the pixel before. -/
def stepOf (type : SampleType) (difference : UInt32) : UInt32 :=
  match type with
  | .float => Rounding.from24 difference
  | .half | .uint => difference

/-- The sample bytes of one segment, whose planes are given. -/
def decodeSegment (segment : Segment) (planes : Bytes) : Bytes :=
  let table := planes.toArray
  let count := planeCount segment.type
  let steps := (List.range segment.samples).map fun index =>
    stepOf segment.type (join table count segment.samples index)
  (sums 0 steps).flatMap fun bits => littleEndian segment.type.byteSize bits.toNat

/-- The sample bytes of all segments, whose planes follow one another. -/
def decode : List Segment → Bytes → Outcome Bytes
  | [], [] => .ok []
  | [], _ :: _ => .error (.invalid .planesExcess)
  | segment :: others, planes => do
    let length := segment.samples * planeCount segment.type
    let front := planes.take length
    if front.length < length then .error (.invalid .planesMissing)
    else
      let samples ← decode others (planes.drop length)
      return decodeSegment segment front ++ samples

end PixelBlocks.Planes

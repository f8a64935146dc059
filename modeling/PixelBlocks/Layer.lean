import PixelBlocks.Layer.Channel
import PixelBlocks.Defaults

/-!
# Layers

A layer description says all that compression needs to know about a layer of
pixels: its channels, its window, its method, how the window is cut into blocks,
and whether pixels hold one sample or any number of them.
-/

namespace PixelBlocks

/-- How the window of a layer is cut into blocks. -/
inductive Partition
  /-- Blocks of full rows, as many as the method takes together. -/
  | scanLines
  /-- Rectangular tiles of at most the given size. -/
  | tiles (size : Pair UInt64)
  deriving DecidableEq, Repr, Inhabited

/-- What compression needs to know about a layer. -/
structure Layer where
  channels : ChannelList
  method : Method
  /-- The rectangle of pixels that the layer covers. -/
  window : Rectangle
  partition : Partition
  /-- Whether each pixel holds any number of samples. -/
  deep : Bool
  /-- The zstandard level that the file asks for, if it does. -/
  zstdLevel : Option UInt8
  deriving DecidableEq, Repr, Inhabited

namespace Layer

/-- The zstandard level in effect: that of the file, else the default. -/
def effectiveZstdLevel (layer : Layer) (defaults : Defaults) : UInt8 :=
  layer.zstdLevel.getD defaults.zstd

/-- The quality in effect: that of the method, else the default. -/
def effectiveQuality (layer : Layer) (defaults : Defaults) : Quality :=
  layer.method.quality?.getD defaults.quality

/-- The size of the largest blocks. -/
def largestBlock (layer : Layer) : Pair UInt64 :=
  match layer.partition with
  | .scanLines => ⟨layer.window.size.x, UInt64.ofNat layer.method.scanLines⟩
  | .tiles size => size

/-- The byte size of a largest block, taken at the corner of the window. -/
def largestBlockBytes (layer : Layer) : Outcome Nat :=
  layer.channels.byteSize ⟨layer.window.position, layer.largestBlock⟩

/-- Subsampling is for flat layers of scan lines only. -/
def allowsSampling (layer : Layer) : Bool :=
  !layer.deep && layer.partition == .scanLines

/-- Refuses tiles whose area is zero as a 64-bit word. -/
def validatePartition (layer : Layer) : Outcome Unit :=
  match layer.partition with
  | .scanLines => .ok ()
  | .tiles size => if size.area = 0 then .error (.configuration .emptyTile) else .ok ()

/-- Refuses deep data for methods that cannot hold it. -/
def validateDepth (layer : Layer) : Outcome Unit :=
  if layer.deep ∧ ¬ layer.method.supportsDeep
  then .error (.configuration (.deepUnsupported layer.method))
  else .ok ()

/-- Checks the level and the quality that the layer itself asks for. -/
def validateLevels (layer : Layer) : Outcome Unit := do
  match layer.zstdLevel with
  | some level => Defaults.validateZstd (Int32.ofNat level.toNat)
  | none => .ok ()
  match layer.method.quality? with
  | some quality => Defaults.validateQuality quality
  | none => .ok ()

/-- Accepts layers that instances can be made for. -/
def validate (layer : Layer) : Outcome Unit := do
  layer.window.validate none
  layer.channels.validate layer.allowsSampling layer.window
  layer.validatePartition
  layer.validateDepth
  layer.validateLevels

end Layer

end PixelBlocks

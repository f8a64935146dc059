import PixelBlocks.Quality
import PixelBlocks.Layer.SampleType

/-!
# Compression methods

The eleven methods a layer can name, and what is known about each of them: its
number and name, how many scan lines form a block, whether it may lose
information, and whether it may hold deep data. The catalogue lists them in the
order of their numbers.
-/

namespace PixelBlocks

/-- How the blocks of a layer are compressed. -/
inductive Method
  /-- Bytes are stored as they are. -/
  | uncompressed
  /-- Run lengths of byte differences. -/
  | runLength
  /-- A zlib stream of byte differences for each scan line. -/
  | zipLine
  /-- A zlib stream of byte differences for sixteen scan lines. -/
  | zipBlock
  /-- Wavelets. Registered, but not implemented. -/
  | piz
  /-- Byte planes of pixel differences, with floats rounded to 24 bits. -/
  | pxr24
  /-- Blocks of four by four pixels. Registered, but not implemented. -/
  | b44
  /-- Like `b44` with cheaper flat areas. Registered, but not implemented. -/
  | b44a
  /-- Cosine transforms of 32 scan lines. Registered, but not implemented. -/
  | dwaa (quality : Option Quality)
  /-- Cosine transforms of 256 scan lines. Registered, but not implemented. -/
  | dwab (quality : Option Quality)
  /-- A zstandard chunk of shuffled samples. -/
  | zstd
  deriving DecidableEq, Repr, Inhabited

/-- What is known about a compression method. -/
structure CatalogueEntry where
  /-- The number that names the method in file headers. -/
  number : UInt8
  /-- The short name, in lower case. -/
  name : String
  /-- A summary for people. -/
  description : String
  /-- How many scan lines form a full block. -/
  scanLines : Nat
  /-- Whether information may be lost. -/
  lossy : Bool
  /-- Whether deep data may be compressed. -/
  deep : Bool
  deriving DecidableEq, Repr, Inhabited

namespace CatalogueEntry

/-- The name followed by the summary. -/
def title (entry : CatalogueEntry) : String :=
  entry.name ++ ": " ++ entry.description

end CatalogueEntry

namespace Method

/-- The catalogue entry of a method. -/
def entry : Method → CatalogueEntry
  | uncompressed => ⟨0, "none", "no compression", 1, false, true⟩
  | runLength => ⟨1, "rle", "run-length encoding.", 1, false, true⟩
  | zipLine => ⟨2, "zips", "zlib compression, one scan line at a time.", 1, false, true⟩
  | zipBlock => ⟨3, "zip", "zlib compression, in blocks of 16 scan lines.", 16, false, false⟩
  | piz =>
    ⟨4, "piz", "piz-based wavelet compression, in blocks of 32 scan lines.", 32, false, false⟩
  | pxr24 =>
    ⟨5, "pxr24", "lossy 24-bit float compression, in blocks of 16 scan lines.", 16, true, false⟩
  | b44 =>
    ⟨6, "b44", "lossy 4-by-4 pixel block compression, fixed compression rate.", 32, true, false⟩
  | b44a =>
    ⟨7, "b44a", "lossy 4-by-4 pixel block compression, flat fields are compressed more.",
      32, true, false⟩
  | dwaa _ =>
    ⟨8, "dwaa", "lossy DCT based compression, in blocks of 32 scanlines. " ++
      "More efficient for partial buffer access.", 32, true, false⟩
  | dwab _ =>
    ⟨9, "dwab", "lossy DCT based compression, in blocks of 256 scanlines. " ++
      "More efficient space wise and faster to decode full frames than DWAA_COMPRESSION.",
      256, true, false⟩
  | zstd => ⟨10, "zstd", "zstandard compression, in blocks of 32 scan lines.", 32, false, true⟩

/-- All methods by number. The lossy cosine methods carry no quality. -/
def all : List Method :=
  [uncompressed, runLength, zipLine, zipBlock, piz, pxr24, b44, b44a, dwaa none, dwab none, zstd]

/-- The number that names the method in file headers. -/
def number (method : Method) : UInt8 := method.entry.number

/-- How many scan lines form a full block. -/
def scanLines (method : Method) : Nat := method.entry.scanLines

/-- Whether deep data may be compressed. -/
def supportsDeep (method : Method) : Bool := method.entry.deep

/-- Whether information may be lost. -/
def isLossy (method : Method) : Bool := method.entry.lossy

/-- The quality that was asked for, which only the cosine methods have. -/
def quality? : Method → Option Quality
  | dwaa quality => quality
  | dwab quality => quality
  | _ => none

/-- Whether samples of a type come back exactly. -/
def isLosslessFor : Method → SampleType → Bool
  | pxr24, type => type != .float
  | b44, type | b44a, type => type != .half
  | dwaa _, _ | dwab _, _ => false
  | _, _ => true

/-- Whether blocks can be compressed here at all. -/
def isImplemented : Method → Bool
  | uncompressed | runLength | zipLine | zipBlock | pxr24 | zstd => true
  | piz | b44 | b44a | dwaa _ | dwab _ => false

/-- The method in messages. -/
def title (method : Method) : String :=
  let word := match method with
    | uncompressed => "no"
    | runLength => "rle"
    | zipLine => "zip line"
    | zipBlock => "zip block"
    | b44 => "b44"
    | b44a => "b44a"
    | dwaa _ => "dwaa"
    | dwab _ => "dwab"
    | piz => "piz"
    | pxr24 => "pxr24"
    | zstd => "zstd"
  word ++ " compression"

end Method

end PixelBlocks

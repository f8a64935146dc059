import PixelBlocks.Method
import PixelBlocks.Layer.Name

/-!
# Faults

Every operation that can fail reports the cause of its failure. A cause belongs
to one of the six classes of `Fault`, and each class has its own opening words in
messages. A quotient by a sampling factor of zero is a seventh class of its own:
it is a mistake of the caller, who could have checked the channel first.
-/

namespace PixelBlocks

/-- Settings that are not accepted. -/
inductive ConfigurationFault
  | unknownMethodName (name : String) (expected : String)
  | unknownMethodNumber (number : UInt8)
  | zipLevel (level : Int32)
  | zstdLevel (level : Int32)
  | quality (value : Quality)
  | zeroSampling
  | subsamplingForbidden
  | samplingOfPosition
  | samplingOfSize
  | noChannel
  | repeatedChannel
  | unsortedChannels
  | emptyTile
  | deepUnsupported (method : Method)
  | deepLayer
  | flatLayer
  | typeSize (size : Nat)
  | truncationTypeSize
  deriving DecidableEq, Repr

namespace ConfigurationFault

/-- The cause in words. -/
def message : ConfigurationFault → String
  | unknownMethodName name expected =>
    "unknown compression method \"" ++ name ++ "\" (expected one of " ++ expected ++ ")"
  | unknownMethodNumber number => "unknown compression method id " ++ toString number.toNat
  | zipLevel level => "zip compression level " ++ toString level.toInt ++ " is not between 0 and 9"
  | zstdLevel level =>
    "zstd compression level " ++ toString level.toInt ++ " is not between 1 and 9"
  | quality value =>
    "dwa compression level " ++ Single.text value ++ " is not a non-negative number"
  | zeroSampling => "zero sampling factor"
  | subsamplingForbidden => "subsampling is only allowed in flat scan line images"
  | samplingOfPosition => "channel sampling factor not dividing data window position"
  | samplingOfSize => "channel sampling factor not dividing data window size"
  | noChannel => "at least one channel is required"
  | repeatedChannel => "channel names are not unique"
  | unsortedChannels => "channel names are not sorted alphabetically"
  | emptyTile => "tile size must not be zero"
  | deepUnsupported method => method.title ++ " does not support deep data"
  | deepLayer => "deep data requires a deep compressor"
  | flatLayer => "flat data requires a flat compressor"
  | typeSize size => "chunk type size " ++ toString size ++ " is not between 1 and 255"
  | truncationTypeSize => "float truncation requires a type size of 4"

end ConfigurationFault

/-- Failures of an encoder. -/
inductive EncodingFault
  | countTooLarge
  | zstdFailed
  | zstdBound (produced : Nat) (bound : Nat)
  deriving DecidableEq, Repr

namespace EncodingFault

/-- The cause in words. -/
def message : EncodingFault → String
  | countTooLarge => "slice too large for an i32 size prefix"
  | zstdFailed => "zstd compression failed"
  | zstdBound produced bound =>
    "zstd produced " ++ toString produced ++ " bytes, exceeding its bound of "
      ++ toString bound ++ " bytes"

end EncodingFault

/-- Data that is corrupt or does not have the expected layout. -/
inductive DataFault
  | missingBytes
  | valueCount
  | coordinateX
  | coordinateY
  | windowLimit
  | sectionSize
  | channelSampling
  | originOutside (row : Int32)
  | originUnaligned (row : Int32) (lines : Nat)
  | tileOutside
  | blockLength (actual : Nat) (expected : Nat)
  | decodedLength (method : Method)
  | decodedDeepLength (method : Method)
  | runLength
  | runLengthExcess
  | zlibStream
  | planesExcessInput
  | planesMissing
  | planesExcess
  | chunkHeaderLength
  | chunkMagic
  | chunkVersion (version : UInt8)
  | chunkFlags
  | chunkAlgorithm (code : UInt8)
  | chunkReserved
  | chunkFlagConsistency
  | chunkParameters
  | dictionaryTooLarge
  | payloadTooLarge
  | chunkSize
  | chunkContent (declared : Nat) (expected : Nat)
  | chunkLength (actual : Nat) (declared : Nat)
  | zstdFrame
  | chunkDecodedLength (actual : Nat) (expected : Nat)
  | offsetsDecrease
  | deepBlockLength (actual : Nat) (contained : Nat)
  | deepDataLength (actual : Nat) (expected : Nat)
  | envelopeVersion (version : Int32)
  | envelopeChunkSize
  | envelopeChunkExcess
  | envelopeTrailing
  | envelopeChunkType (type : SampleType)
  deriving DecidableEq, Repr

namespace DataFault

/-- The cause in words. -/
def message : DataFault → String
  | missingBytes => "reference to missing bytes"
  | valueCount => "value count"
  | coordinateX => "vector x coordinate too large"
  | coordinateY => "vector y coordinate too large"
  | windowLimit => "window size exceeding integer maximum"
  | sectionSize => "window attribute dimension value"
  | channelSampling => "channel sampling"
  | originOutside row =>
    "block origin y = " ++ toString row.toInt ++ " outside of the data window"
  | originUnaligned row lines =>
    "block origin y = " ++ toString row.toInt ++ " is not aligned to blocks of "
      ++ toString lines ++ " scan lines"
  | tileOutside => "tile outside of the data window"
  | blockLength actual expected =>
    "block of " ++ toString actual ++ " bytes does not match the "
      ++ toString expected ++ " bytes of its pixel rectangle"
  | decodedLength method => "decompressed " ++ method.title ++ " data"
  | decodedDeepLength method => "decompressed " ++ method.title ++ " deep data"
  | runLength => "run-length encoded data"
  | runLengthExcess => "run-length encoded data exceeds the block size"
  | zlibStream => "zlib-compressed data malformed"
  | planesExcessInput => "pxr24 input exceeds the block size"
  | planesMissing => "not enough pxr24 data"
  | planesExcess => "too much pxr24 data"
  | chunkHeaderLength => "truncated chunk header"
  | chunkMagic => "chunk magic number"
  | chunkVersion version => "unsupported chunk format version " ++ toString version.toNat
  | chunkFlags => "unknown chunk flags"
  | chunkAlgorithm code => "unknown chunk algorithm " ++ toString code.toNat
  | chunkReserved => "reserved chunk header bytes"
  | chunkFlagConsistency => "inconsistent chunk flags"
  | chunkParameters => "chunk parameters"
  | dictionaryTooLarge => "dictionary too large"
  | payloadTooLarge => "chunk payload too large"
  | chunkSize => "chunk size"
  | chunkContent declared expected =>
    "chunk contains " ++ toString declared ++ " bytes instead of the expected "
      ++ toString expected ++ " bytes"
  | chunkLength actual declared =>
    "chunk of " ++ toString actual ++ " bytes declares " ++ toString declared ++ " bytes"
  | zstdFrame => "zstd decompression failed"
  | chunkDecodedLength actual expected =>
    "chunk decompressed to " ++ toString actual ++ " bytes instead of "
      ++ toString expected ++ " bytes"
  | offsetsDecrease => "deep pixel offsets must not decrease"
  | deepBlockLength actual contained =>
    "deep block has " ++ toString actual ++ " bytes, but its channels only contain "
      ++ toString contained ++ " bytes"
  | deepDataLength actual expected =>
    "deep data of " ++ toString actual ++ " bytes does not match the expected "
      ++ toString expected ++ " bytes"
  | envelopeVersion version =>
    "unsupported deep envelope version " ++ toString version.toInt
  | envelopeChunkSize => "deep chunk size"
  | envelopeChunkExcess => "deep chunk size exceeds the envelope"
  | envelopeTrailing => "trailing bytes after the last deep chunk"
  | envelopeChunkType type => "deep chunk was not written for a " ++ type.name ++ " channel"

end DataFault

/-- Byte ranges that do not fit into the supplied buffer or into memory. -/
inductive CapacityFault
  | blockSize
  | blockLength (actual : Nat) (expected : Nat)
  | channelRange
  | channelEnd (name : Name) (stop : Nat) (available : Nat)
  | deepBlockSize
  | deepChannelSize
  | offsetTableSize
  | chunkRoom (needed : Nat) (available : Nat)
  deriving DecidableEq, Repr

namespace CapacityFault

/-- The cause in words. -/
def message : CapacityFault → String
  | blockSize => "pixel block byte size"
  | blockLength actual expected => (DataFault.blockLength actual expected).message
  | channelRange => "deep channel byte range"
  | channelEnd name stop available =>
    "deep channel " ++ name.toString ++ " needs bytes up to " ++ toString stop
      ++ ", but the block has only " ++ toString available ++ " bytes"
  | deepBlockSize => "deep block byte size"
  | deepChannelSize => "deep channel byte size"
  | offsetTableSize => "pixel offset table byte size"
  | chunkRoom needed available =>
    "compressed chunk of " ++ toString needed ++ " bytes does not fit into "
      ++ toString available ++ " bytes"

end CapacityFault

/-- Methods that are registered without an implementation. -/
inductive SupportFault
  | flatMethod (method : Method)
  | deepMethod (method : Method)
  deriving DecidableEq, Repr

namespace SupportFault

/-- The cause in words. -/
def message : SupportFault → String
  | flatMethod method => method.title ++ " is not implemented"
  | deepMethod method => "deep data with " ++ method.title

end SupportFault

/-- Why an operation failed. -/
inductive Fault
  /-- A setting was not accepted. -/
  | configuration (cause : ConfigurationFault)
  /-- An encoder failed or broke its own bound. -/
  | encoding (cause : EncodingFault)
  /-- Data is corrupt or has an unexpected layout. -/
  | invalid (cause : DataFault)
  /-- A byte range does not fit. Reported before any entropy coder runs. -/
  | capacity (cause : CapacityFault)
  /-- The method is known, but not implemented. -/
  | unsupported (cause : SupportFault)
  /-- A writer of limited capacity is full. -/
  | fullWriter
  /-- A size was divided by a sampling factor of zero. -/
  | divisionByZero
  deriving DecidableEq, Repr

namespace Fault

/-- The class of a fault followed by its cause, in words. -/
def message : Fault → String
  | configuration cause => "invalid configuration: " ++ cause.message
  | encoding cause => "encoding failed: " ++ cause.message
  | invalid cause => "invalid data: " ++ cause.message
  | capacity cause => "buffer too small: " ++ cause.message
  | unsupported cause => "not supported: " ++ cause.message
  | fullWriter => "failed to write whole buffer"
  | divisionByZero => "attempt to divide by zero"

end Fault

/-- The result of an operation that may fail with a fault. -/
abbrev Outcome := Except Fault

end PixelBlocks

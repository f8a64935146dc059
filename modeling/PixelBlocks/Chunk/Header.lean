import PixelBlocks.Chunk.Parameters
import PixelBlocks.Scalar.Stream

/-!
# Chunk headers

A chunk starts with 28 bytes: four bytes of magic, the format version, flags, the
preprocessing, the sample size, the level, three zero bytes, the uncompressed size
in eight bytes, and the sizes of dictionary and payload in four bytes each. The
flags repeat whether there is a dictionary and whether floats were truncated.
-/

namespace PixelBlocks

/-- What the header of a chunk says. -/
structure ChunkHeader where
  parameters : ChunkParameters
  /-- How many bytes the chunk decompresses to. -/
  uncompressed : UInt64
  /-- How many bytes of dictionary follow the header. -/
  dictionary : Nat
  /-- How many bytes of payload follow the dictionary. -/
  payload : Nat
  deriving DecidableEq, Repr, Inhabited

namespace ChunkHeader

/-- The bytes before dictionary and payload. -/
def byteSize : Nat := 28

/-- The first bytes of every chunk. -/
def magic : Bytes := [0x45, 0x58, 0x5a, 0x43]

/-- The only format version. -/
def version : UInt8 := 1

/-- The largest chunk that bytes of a size can give. -/
def chunkBound (frameBound : Nat → Nat) (size : Nat) : Nat :=
  byteSize + frameBound size

/-- The flag byte: bit 0 for a dictionary and bit 1 for truncated floats. -/
def flags (header : ChunkHeader) : UInt8 :=
  (if 0 < header.dictionary then 1 else 0)
    + (if header.parameters.preprocessing = .truncate then 2 else 0)

/-- The size of the whole chunk, if it is a size. -/
def chunkSize (header : ChunkHeader) : Outcome Nat :=
  match (Size.add? byteSize header.dictionary).bind (Size.add? · header.payload) with
  | some size => .ok size
  | none => .error (.invalid .chunkSize)

/-- A size as four bytes. -/
def sizeField (size : Nat) (fault : DataFault) : Outcome Bytes :=
  if 0x100000000 ≤ size then .error (.invalid fault) else .ok (Scalar.uint32.encode (UInt32.ofNat size))

/-- The fields of a header in order. Sizes that do not fit their field fail, and
    a sample size is cut to one byte. -/
def fields (header : ChunkHeader) : List (Outcome Bytes) :=
  [.ok magic,
    .ok [version],
    .ok [header.flags],
    .ok [header.parameters.preprocessing.code],
    .ok [header.parameters.typeSize.toUInt8],
    .ok [header.parameters.level],
    .ok [0, 0, 0],
    .ok (Scalar.uint64.encode header.uncompressed),
    sizeField header.dictionary .dictionaryTooLarge,
    sizeField header.payload .payloadTooLarge]

/-- Writes fields up to the first that fails. -/
def writeFields : List (Outcome Bytes) → Bytes × Outcome Unit
  | [] => ([], .ok ())
  | .error fault :: _ => ([], .error fault)
  | .ok bytes :: rest =>
    let (written, outcome) := writeFields rest
    (bytes ++ written, outcome)

/-- Writes a header. If a field fails, the fields before it are written. -/
def write (header : ChunkHeader) : Bytes × Outcome Unit :=
  writeFields header.fields

/-- The bytes of a header whose sizes fit. -/
def encode (header : ChunkHeader) : Outcome Bytes :=
  let (written, outcome) := header.write
  match outcome with
  | .ok () => .ok written
  | .error fault => .error fault

/-- Fails unless the condition holds. -/
def require (condition : Bool) (fault : DataFault) : Outcome Unit :=
  if condition then .ok () else .error (.invalid fault)

/-- Reads the header at the front of a byte string, and leaves what follows. -/
def read (bytes : Bytes) : Outcome (ChunkHeader × Bytes) := do
  require (decide (byteSize ≤ bytes.length)) .chunkHeaderLength
  let (foundMagic, bytes) ← Scalar.takeBytes 4 bytes
  require (foundMagic == magic) .chunkMagic
  let (foundVersion, bytes) ← Scalar.uint8.read bytes
  require (foundVersion == version) (.chunkVersion foundVersion)
  let (foundFlags, bytes) ← Scalar.uint8.read bytes
  require (decide (foundFlags < 4)) .chunkFlags
  let (code, bytes) ← Scalar.uint8.read bytes
  let preprocessing ← Preprocessing.ofCode code
  let (typeSize, bytes) ← Scalar.uint8.read bytes
  let (level, bytes) ← Scalar.uint8.read bytes
  let (reserved, bytes) ← Scalar.takeBytes 3 bytes
  require (reserved == [0, 0, 0]) .chunkReserved
  let (uncompressed, bytes) ← Scalar.uint64.read bytes
  let (dictionary, bytes) ← Scalar.uint32.read bytes
  let (payload, bytes) ← Scalar.uint32.read bytes
  let header : ChunkHeader :=
    { parameters := ⟨UInt8.toNat typeSize, level, preprocessing⟩
      uncompressed
      dictionary := UInt32.toNat dictionary
      payload := UInt32.toNat payload }
  require (foundFlags == header.flags) .chunkFlagConsistency
  match header.parameters.validate with
  | .ok () => .ok (header, bytes)
  | .error _ => .error (.invalid .chunkParameters)

end ChunkHeader

end PixelBlocks

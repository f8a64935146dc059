import PixelBlocks.Chunk.Header
import PixelBlocks.Proofs.Defaults
import PixelBlocks.Proofs.Scalar

/-!
# Chunk headers are read as they were written

Writing fails exactly for sizes that do not fit into four bytes. A header that was
written is read back if its parameters are valid, whatever follows it. Sample sizes are cut
to one byte, so any other header is read as one with another sample size, or not at all.
-/

namespace PixelBlocks

namespace Preprocessing

/-- A code stands for the preprocessing it was made of. -/
@[simp] theorem ofCode_code (preprocessing : Preprocessing) :
    ofCode preprocessing.code = .ok preprocessing := by
  cases preprocessing <;> rfl

/-- A preprocessing has only its own code. -/
theorem eq_code_of_ofCode {code : UInt8} {preprocessing : Preprocessing}
    (found : ofCode code = .ok preprocessing) : code = preprocessing.code := by
  unfold ofCode at found
  split at found
  · next zero =>
    cases found
    exact zero
  · split at found
    · next one =>
      cases found
      exact one
    · split at found
      · next two =>
        cases found
        exact two
      · cases found

end Preprocessing

namespace ChunkParameters

/-- What makes parameters valid. -/
theorem validate_eq_ok_iff (parameters : ChunkParameters) :
    parameters.validate = .ok () ↔
      (1 ≤ parameters.level ∧ parameters.level ≤ 9) ∧
      (0 < parameters.typeSize ∧ parameters.typeSize ≤ 255) ∧
      (parameters.preprocessing = .truncate → parameters.typeSize = 4) := by
  rw [validate, Outcome.bind_eq_ok_iff]
  constructor
  · rintro ⟨⟨⟩, level, sizes⟩
    refine ⟨(Defaults.validateZstd_ofNat_eq_ok_iff _).mp level, ?_⟩
    by_cases narrow : parameters.typeSize = 0 ∨ 255 < parameters.typeSize
    · simp [narrow] at sizes
    · by_cases wrong : parameters.preprocessing = .truncate ∧ parameters.typeSize ≠ 4
      · simp [narrow, wrong] at sizes
      · refine ⟨by omega, fun truncating => ?_⟩
        exact Decidable.not_not.mp fun other => wrong ⟨truncating, other⟩
  · rintro ⟨level, size, truncating⟩
    refine ⟨(), (Defaults.validateZstd_ofNat_eq_ok_iff _).mpr level, ?_⟩
    have narrow : ¬ (parameters.typeSize = 0 ∨ 255 < parameters.typeSize) := by omega
    have right : ¬ (parameters.preprocessing = .truncate ∧ parameters.typeSize ≠ 4) :=
      fun wrong => wrong.2 (truncating wrong.1)
    rw [if_neg narrow, if_neg right]

/-- The parameters that suit a sample type are valid for every level that is. -/
theorem validate_ofSampleType (type : SampleType) {level : UInt8} (valid : 1 ≤ level ∧ level ≤ 9) :
    (ofSampleType type level).validate = .ok () := by
  have width : 0 < type.byteSize ∧ type.byteSize ≤ 255 := by cases type <;> decide
  have truncating : Preprocessing.ofSampleType type = .truncate → type.byteSize = 4 := by
    cases type <;> decide
  exact (validate_eq_ok_iff _).mpr ⟨valid, width, truncating⟩

end ChunkParameters

namespace ChunkHeader

/-- The bytes of a header whose sizes fit into their fields. -/
def layout (header : ChunkHeader) : Bytes :=
  magic ++ ([version] ++ ([header.flags] ++ ([header.parameters.preprocessing.code] ++
    ([header.parameters.typeSize.toUInt8] ++ ([header.parameters.level] ++ ([0, 0, 0] ++
      (Scalar.uint64.encode header.uncompressed ++
        (Scalar.uint32.encode (UInt32.ofNat header.dictionary) ++
          Scalar.uint32.encode (UInt32.ofNat header.payload)))))))))

/-- All headers are equally long. -/
@[simp] theorem length_layout (header : ChunkHeader) : header.layout.length = byteSize := by
  simp [layout, magic, byteSize, Scalar.width]

/-- Writing succeeds exactly if both sizes fit into their fields. -/
theorem encode_eq_ok_iff {header : ChunkHeader} {front : Bytes} :
    header.encode = .ok front ↔
      (header.dictionary < 0x100000000 ∧ header.payload < 0x100000000) ∧
        front = header.layout := by
  by_cases dictionaryLarge : 0x100000000 ≤ header.dictionary
  · have failed : ¬ header.dictionary < 0x100000000 := by omega
    simp [encode, write, fields, writeFields, sizeField, dictionaryLarge, failed]
  · by_cases payloadLarge : 0x100000000 ≤ header.payload
    · have failed : ¬ header.payload < 0x100000000 := by omega
      simp [encode, write, fields, writeFields, sizeField, dictionaryLarge, payloadLarge, failed]
    · have fits : header.dictionary < 0x100000000 ∧ header.payload < 0x100000000 := by omega
      simp [encode, write, fields, writeFields, sizeField, dictionaryLarge, payloadLarge, fits,
        layout, eq_comm]

/-- Chunks whose sizes fit into the header have a size. -/
theorem chunkSize_eq_ok (header : ChunkHeader) (dictionaryFits : header.dictionary < 0x100000000)
    (payloadFits : header.payload < 0x100000000) :
    header.chunkSize = .ok (byteSize + header.dictionary + header.payload) := by
  have front : byteSize + header.dictionary < Size.bound := by
    simp only [byteSize, Size.bound]
    omega
  have whole : byteSize + header.dictionary + header.payload < Size.bound := by
    simp only [byteSize, Size.bound]
    omega
  rw [chunkSize, Size.add?_eq_some_iff.mpr ⟨front, rfl⟩, Option.bind_some,
    Size.add?_eq_some_iff.mpr ⟨whole, rfl⟩]

/-- The size of a chunk is that of its three parts. -/
theorem eq_of_chunkSize {header : ChunkHeader} {size : Nat} (found : header.chunkSize = .ok size) :
    size = byteSize + header.dictionary + header.payload := by
  cases front : Size.add? byteSize header.dictionary with
  | none => simp [chunkSize, front] at found
  | some start =>
    cases whole : Size.add? start header.payload with
    | none => simp [chunkSize, front, whole] at found
    | some stop =>
      simp only [chunkSize, front, whole, Option.bind_some, Except.ok.injEq] at found
      rw [← found, (Size.add?_eq_some_iff.mp whole).2, (Size.add?_eq_some_iff.mp front).2]

/-- No flags beyond the two lowest bits are set. -/
theorem flags_lt (header : ChunkHeader) : header.flags < 4 := by
  unfold flags
  split
  · split <;> decide
  · split <;> decide

/-- What the bytes of a header say: its sample size modulo 256. -/
def narrowed (header : ChunkHeader) : ChunkHeader :=
  { header with parameters :=
      { header.parameters with typeSize := header.parameters.typeSize % 256 } }

/-- Headers say what they mean exactly if the sample size fits into a byte. -/
theorem narrowed_eq_self_iff {header : ChunkHeader} :
    header.narrowed = header ↔ header.parameters.typeSize ≤ 255 := by
  obtain ⟨⟨typeSize, level, preprocessing⟩, uncompressed, dictionary, payload⟩ := header
  simp only [narrowed, mk.injEq, ChunkParameters.mk.injEq, and_true]
  omega

/-- The bytes of a header are read as its narrowed form if the parameters in it are valid, and
what follows them is left over. The other checks of the reader are met. -/
theorem read_layout_append_eq {header : ChunkHeader}
    (dictionaryFits : header.dictionary < 0x100000000) (payloadFits : header.payload < 0x100000000)
    (rest : Bytes) : read (header.layout ++ rest) =
      match header.narrowed.parameters.validate with
      | .ok () => .ok (header.narrowed, rest)
      | .error _ => .error (.invalid .chunkParameters) := by
  have long : byteSize ≤ (header.layout ++ rest).length := by
    rw [List.length_append, length_layout]
    omega
  have width : header.parameters.typeSize.toUInt8.toNat = header.parameters.typeSize % 256 := by
    simp only [Nat.toUInt8, UInt8.toNat_ofNat', Nat.reducePow]
  have dictionary : (UInt32.ofNat header.dictionary).toNat = header.dictionary :=
    UInt32.toNat_ofNat_of_lt' dictionaryFits
  have payload : (UInt32.ofNat header.payload).toNat = header.payload :=
    UInt32.toNat_ofNat_of_lt' payloadFits
  have fieldwise : (⟨⟨header.parameters.typeSize % 256, header.parameters.level,
      header.parameters.preprocessing⟩, header.uncompressed, header.dictionary,
      header.payload⟩ : ChunkHeader) = header.narrowed := rfl
  have sameFlags : header.narrowed.flags = header.flags := rfl
  have four : magic.length = 4 := rfl
  have three : ([0, 0, 0] : Bytes).length = 3 := rfl
  unfold read
  simp only [long, decide_true, require, if_true, Outcome.ok_bind]
  simp only [layout, List.append_assoc]
  rw [Scalar.takeBytes_append four]
  simp only [Outcome.ok_bind, beq_self_eq_true, if_true, Scalar.read_byte, flags_lt, decide_true,
    Preprocessing.ofCode_code]
  rw [Scalar.takeBytes_append three]
  simp only [Outcome.ok_bind, beq_self_eq_true, if_true, Scalar.read_encode_append, width,
    dictionary, payload, fieldwise, sameFlags]
  rfl

/-- A header that was written is read back, and what follows it is left over. -/
theorem read_layout_append {header : ChunkHeader} (valid : header.parameters.validate = .ok ())
    (dictionaryFits : header.dictionary < 0x100000000) (payloadFits : header.payload < 0x100000000)
    (rest : Bytes) : read (header.layout ++ rest) = .ok (header, rest) := by
  obtain ⟨-, ⟨-, narrow⟩, -⟩ := (ChunkParameters.validate_eq_ok_iff _).mp valid
  rw [read_layout_append_eq dictionaryFits payloadFits, narrowed_eq_self_iff.mpr narrow, valid]

/-- A requirement is met exactly if its condition holds. -/
theorem require_eq_ok_iff {condition : Bool} {fault : DataFault} :
    require condition fault = .ok () ↔ condition = true := by
  cases condition <;> simp [require]

/-- Bytes that were read as a header are those that the header is written as, and its
parameters are valid. No two headers share their bytes. -/
theorem eq_layout_append_of_read {header : ChunkHeader} {bytes rest : Bytes}
    (found : read bytes = .ok (header, rest)) :
    bytes = header.layout ++ rest ∧ header.parameters.validate = .ok () ∧
      header.dictionary < 0x100000000 ∧ header.payload < 0x100000000 := by
  obtain ⟨⟨⟩, -, found⟩ := Outcome.bind_eq_ok_iff.mp found
  obtain ⟨⟨front, behindMagic⟩, magicRead, found⟩ := Outcome.bind_eq_ok_iff.mp found
  obtain ⟨⟨⟩, magicRight, found⟩ := Outcome.bind_eq_ok_iff.mp found
  obtain ⟨⟨foundVersion, behindVersion⟩, versionRead, found⟩ := Outcome.bind_eq_ok_iff.mp found
  obtain ⟨⟨⟩, versionRight, found⟩ := Outcome.bind_eq_ok_iff.mp found
  obtain ⟨⟨foundFlags, behindFlags⟩, flagsRead, found⟩ := Outcome.bind_eq_ok_iff.mp found
  obtain ⟨⟨⟩, -, found⟩ := Outcome.bind_eq_ok_iff.mp found
  obtain ⟨⟨code, behindCode⟩, codeRead, found⟩ := Outcome.bind_eq_ok_iff.mp found
  obtain ⟨preprocessing, coded, found⟩ := Outcome.bind_eq_ok_iff.mp found
  obtain ⟨⟨typeSize, behindType⟩, typeRead, found⟩ := Outcome.bind_eq_ok_iff.mp found
  obtain ⟨⟨level, behindLevel⟩, levelRead, found⟩ := Outcome.bind_eq_ok_iff.mp found
  obtain ⟨⟨reserved, behindReserved⟩, reservedRead, found⟩ := Outcome.bind_eq_ok_iff.mp found
  obtain ⟨⟨⟩, reservedRight, found⟩ := Outcome.bind_eq_ok_iff.mp found
  obtain ⟨⟨uncompressed, behindSize⟩, sizeRead, found⟩ := Outcome.bind_eq_ok_iff.mp found
  obtain ⟨⟨dictionary, behindDictionary⟩, dictionaryRead, found⟩ :=
    Outcome.bind_eq_ok_iff.mp found
  obtain ⟨⟨payload, body⟩, payloadRead, found⟩ := Outcome.bind_eq_ok_iff.mp found
  obtain ⟨⟨⟩, flagsRight, found⟩ := Outcome.bind_eq_ok_iff.mp found
  rw [require_eq_ok_iff, beq_iff_eq] at magicRight versionRight reservedRight flagsRight
  rw [Scalar.takeBytes_eq_ok_iff] at magicRead reservedRead
  rw [Scalar.read_eq_ok_iff] at versionRead flagsRead codeRead typeRead levelRead
  rw [Scalar.read_eq_ok_iff] at sizeRead dictionaryRead payloadRead
  dsimp only at found
  split at found
  · next valid =>
    cases found
    refine ⟨?_, valid, UInt32.toNat_lt dictionary, UInt32.toNat_lt payload⟩
    rw [magicRead.2, versionRead, flagsRead, codeRead, typeRead, levelRead, reservedRead.2, sizeRead,
      dictionaryRead, payloadRead, magicRight, versionRight, flagsRight, reservedRight,
      Preprocessing.eq_code_of_ofCode coded]
    simp [layout, Scalar.encode_uint8]
  · cases found

end ChunkHeader

end PixelBlocks

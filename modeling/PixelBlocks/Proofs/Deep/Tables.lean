import PixelBlocks.Proofs.Deep.Corruption
import PixelBlocks.Proofs.Deep.Offsets

/-!
# Stored offset tables

The offset table of a block is stored like the samples of one more channel of integers: in
an envelope of a single chunk, or as bytes that are told apart from their compressed form by
their length. Either way it comes back, through any instance with the same method. A stored
table may come from anywhere, so a reader checks the order of the offsets that it finds: it
returns one offset for each pixel of some block, or finds the stored bytes invalid.
-/

namespace PixelBlocks.DeepCompressor

variable {coders : Coders} {layer : Layer} {compressor : DeepCompressor}
variable {offsets : List Int32} {stored table : Bytes} {pixels : Nat}

section Writing

/-- The only piece of the envelope of an offset table. -/
def tablePiece (offsets : List Int32) : Piece := ⟨.uint, Offsets.encode offsets⟩

/-- The range of a whole offset table. -/
def tableRange (offsets : List Int32) : ChannelRange := ⟨.uint, 0, (Offsets.encode offsets).length⟩

/-- The range of a table is the whole of it. -/
@[simp] theorem slice_tableRange (offsets : List Int32) :
    (tableRange offsets).slice (Offsets.encode offsets) = Offsets.encode offsets :=
  List.take_length

/-- A whole table is one piece. -/
@[simp] theorem piece_tableRange (offsets : List Int32) :
    (tableRange offsets).piece (Offsets.encode offsets) = tablePiece offsets :=
  congrArg (Piece.mk .uint) (slice_tableRange offsets)

/-- Integers go through chunks without a change. -/
@[simp] theorem settle_tablePiece (offsets : List Int32) :
    (tablePiece offsets).settle = tablePiece offsets := rfl

/-- Four bytes are stored for each offset. -/
@[simp] theorem length_tablePiece (offsets : List Int32) :
    (tablePiece offsets).bytes.length = offsets.length * 4 := Offsets.length_encode offsets

/-- Ascending offsets are stored as a piece in an envelope, or by a byte method. -/
theorem compressTable_eq (ascending : Offsets.Ascending offsets) :
    (compressor.compressTable coders offsets).1 =
      if compressor.method = .zstd then
        encodeChannels coders .inOrder compressor.zstdLevel (Offsets.encode offsets)
          [tableRange offsets]
      else .ok (compressor.packed coders (Offsets.encode offsets)) := by
  have type : (tableRange offsets).type = .uint := rfl
  rw [compressTable_fst, Offsets.total_eq_ok_iff.mpr ⟨ascending, rfl⟩, Outcome.ok_bind,
    encodeChannels_eq_mapM]
  simp [type]

/-- Offsets that do not ascend are invalid. -/
theorem compressTable_invalid (unordered : ¬ Offsets.Ascending offsets) :
    ∃ cause, (compressor.compressTable coders offsets).1 = .error (.invalid cause) := by
  obtain ⟨cause, failed⟩ := Offsets.total_eq_invalid_iff.mpr unordered
  exact ⟨cause, by rw [compressTable_fst, failed]; rfl⟩

end Writing

section Reading

/-- A table whose size can be counted is unpacked, and then its offsets are read. -/
theorem uncompressTable_eq (word : pixels * 4 < Size.bound) :
    (compressor.uncompressTable coders stored pixels).1 = (do
      let table ← compressor.tableBytes coders stored (pixels * 4)
      Offsets.decode pixels table) := by
  have size : Size.mul? pixels 4 = some (pixels * 4) := Size.mul?_eq_some_iff.mpr ⟨word, rfl⟩
  simp only [uncompressTable, size]
  rfl

/-- Nothing is read for more pixels than the size of a table can count. -/
theorem word_of_uncompressTable {found : List Int32}
    (read : (compressor.uncompressTable coders stored pixels).1 = .ok found) :
    pixels * 4 < Size.bound := by
  cases size : Size.mul? pixels 4 with
  | none =>
    simp only [uncompressTable, size] at read
    cases read
  | some needed => exact (Size.mul?_eq_some_iff.mp size).1

/-- The bytes of a table are unpacked or invalid. -/
theorem invalidAtWorst_tableBytes (size : Nat) :
    Outcome.InvalidAtWorst (compressor.tableBytes coders stored size) := by
  unfold tableBytes
  split
  · exact (Envelope.invalidAtWorst_decode _ _).bind fun _ _ => invalidAtWorst_decodeChunk _ _
  · exact invalidAtWorst_unpackBytes _ _ _ _

/-- A table is read or invalid, if its size can be counted. -/
theorem invalidAtWorst_uncompressTable (word : pixels * 4 < Size.bound) :
    Outcome.InvalidAtWorst (compressor.uncompressTable coders stored pixels).1 := by
  rw [uncompressTable_eq word]
  exact (invalidAtWorst_tableBytes _).bind fun _ _ => Offsets.invalidAtWorst_decode _ _

/-- The offsets that are read ascend, and there is one for each pixel. -/
theorem ascending_of_uncompressTable {found : List Int32}
    (read : (compressor.uncompressTable coders stored pixels).1 = .ok found) :
    found.length = pixels ∧ Offsets.Ascending found := by
  rw [uncompressTable_eq (word_of_uncompressTable read)] at read
  obtain ⟨table, -, decoded⟩ := Outcome.bind_eq_ok_iff.mp read
  obtain ⟨-, length, ascending, -⟩ := Offsets.decode_eq_ok_iff.mp decoded
  exact ⟨length, ascending⟩

/-- A reader of envelopes finds the only chunk of a table and decodes it. -/
theorem exists_tableBytes_eq {level : UInt8} (method : compressor.method = .zstd)
    (encloses : Encloses coders level [tablePiece offsets] stored) :
    ∃ chunk, Holds coders level (tablePiece offsets) chunk ∧
      ∀ size, compressor.tableBytes coders stored size =
        decodeChunk coders ⟨.uint, size, chunk⟩ := by
  obtain ⟨chunks, holds, short, rfl⟩ := encloses
  obtain ⟨chunk, others, here, later, rfl⟩ := List.forall₂_cons_left_iff.mp holds
  cases List.forall₂_nil_left_iff.mp later
  have cut := Envelope.decode_eq_ok_iff.mpr ⟨rfl, short, rfl⟩
  refine ⟨chunk, here, fun size => ?_⟩
  rw [tableBytes, if_pos method]
  exact congrArg (· >>= fun chunks => decodeChunk coders ⟨.uint, size, chunks.headD []⟩) cut

/-- A reader of envelopes unpacks the table that its writer enclosed, if it expects its size. -/
theorem tableBytes_eq {level : UInt8} (method : compressor.method = .zstd)
    (encloses : Encloses coders level [tablePiece offsets] stored)
    (word : offsets.length * 4 < Size.bound) :
    compressor.tableBytes coders stored (offsets.length * 4) = .ok (Offsets.encode offsets) := by
  obtain ⟨chunk, holds, unpacked⟩ := exists_tableBytes_eq method encloses
  have decoded := decodeChunk_eq holds (by rwa [length_tablePiece])
  rw [length_tablePiece, settle_tablePiece] at decoded
  exact (unpacked _).trans decoded

/-- A reader of envelopes refuses the table if it expects another size. -/
theorem tableBytes_other {level : UInt8} (method : compressor.method = .zstd)
    (encloses : Encloses coders level [tablePiece offsets] stored)
    (word : offsets.length * 4 < Size.bound) {size : Nat} (other : size ≠ offsets.length * 4) :
    ∃ cause, compressor.tableBytes coders stored size = .error (.invalid cause) := by
  obtain ⟨chunk, holds, unpacked⟩ := exists_tableBytes_eq method encloses
  rw [unpacked]
  apply decodeChunk_other holds (by rwa [length_tablePiece])
  rw [length_tablePiece]
  exact fun same => other same.2

end Reading

section Calls

variable {writer reader : DeepCompressor}

/-- Ascending offsets are stored, if the chunk that zstandard needs fits into an envelope. -/
theorem exists_compressTable (frames : coders.FrameLaws) (bounds : coders.FrameBounds)
    (dictionaries : coders.DictionaryLaws) (writes : Serves layer writer)
    (ascending : Offsets.Ascending offsets)
    (fits : layer.method = .zstd → Chunk.bound coders (offsets.length * 4) < 0x80000000) :
    ∃ stored, (writer.compressTable coders offsets).1 = .ok stored := by
  rw [compressTable_eq ascending, writes.method]
  by_cases method : layer.method = .zstd
  · rw [if_pos method]
    apply exists_encodeChannels .inOrder frames bounds dictionaries writes.zstdLevel
    intro range member
    obtain rfl := List.mem_singleton.mp member
    rw [slice_tableRange, Offsets.length_encode]
    exact fits method
  · rw [if_neg method]
    exact ⟨_, rfl⟩

/-- The envelope of a table encloses it as its only piece. -/
theorem encloses_compressTable (frames : coders.FrameLaws) (dictionaries : coders.DictionaryLaws)
    (method : writer.method = .zstd) (ascending : Offsets.Ascending offsets)
    (compressed : (writer.compressTable coders offsets).1 = .ok stored) :
    Encloses coders writer.zstdLevel [tablePiece offsets] stored := by
  rw [compressTable_eq ascending, if_pos method] at compressed
  have encloses := encloses_encodeChannels frames dictionaries compressed
  rwa [List.map_singleton, piece_tableRange] at encloses

/-- A stored table is read by all instances with the same method. -/
theorem uncompressTable_compressTable (zlib : coders.ZlibLaws) (frames : coders.FrameLaws)
    (dictionaries : coders.DictionaryLaws) (writes : Serves layer writer)
    (sameMethod : reader.method = layer.method) (ascending : Offsets.Ascending offsets)
    (word : offsets.length * 4 < Size.bound)
    (compressed : (writer.compressTable coders offsets).1 = .ok stored) :
    (reader.uncompressTable coders stored offsets.length).1 = .ok offsets := by
  have unpacked : reader.tableBytes coders stored (offsets.length * 4) =
      .ok (Offsets.encode offsets) := by
    have kind : reader.method = writer.method := sameMethod.trans writes.method.symm
    by_cases method : writer.method = .zstd
    · have encloses := encloses_compressTable frames dictionaries method ascending compressed
      exact tableBytes_eq (kind.trans method) encloses word
    · rw [compressTable_eq ascending, if_neg method] at compressed
      cases compressed
      have implemented : implements writer.method = true := by
        rw [writes.method, writes.implemented]
      rw [tableBytes, kind, if_neg method, ← Offsets.length_encode]
      exact unpackBytes_packBytes zlib writes.zipLevel implemented method _
  rw [uncompressTable_eq word, unpacked, Outcome.ok_bind]
  exact Offsets.decode_encode word ascending

/-- An envelope of a table is read for no number of pixels but that of the offsets. -/
theorem pixels_of_uncompressTable (frames : coders.FrameLaws)
    (dictionaries : coders.DictionaryLaws) (writes : Serves layer writer)
    (method : layer.method = .zstd) (sameMethod : reader.method = layer.method)
    (ascending : Offsets.Ascending offsets) (word : offsets.length * 4 < Size.bound)
    (compressed : (writer.compressTable coders offsets).1 = .ok stored) {found : List Int32}
    (read : (reader.uncompressTable coders stored pixels).1 = .ok found) :
    pixels = offsets.length := by
  have encloses := encloses_compressTable frames dictionaries (writes.method.trans method)
    ascending compressed
  by_contra other
  have resized : pixels * 4 ≠ offsets.length * 4 := by omega
  obtain ⟨cause, failed⟩ := tableBytes_other (sameMethod.trans method) encloses word resized
  rw [uncompressTable_eq (word_of_uncompressTable read), failed] at read
  cases read

/-- An offset table is refused exactly if an offset is negative or below the one before it.
Every other table is stored, and comes back through all instances with the same method; out
of an envelope it is read for no other number of pixels. From stored bytes of any origin are
read as many ascending offsets as there are pixels, which have a number of samples, or else
the bytes are invalid. -/
theorem table_roundTrip (zlib : coders.ZlibLaws) (frames : coders.FrameLaws)
    (bounds : coders.FrameBounds) (dictionaries : coders.DictionaryLaws)
    (made : MadeFor layer compressor) :
    (∀ offsets : List Int32,
      (layer.method = .zstd → Chunk.bound coders (offsets.length * 4) < 0x80000000) →
      ((∃ cause, (compressor.compressTable coders offsets).1 = .error (.invalid cause)) ↔
        (∃ offset ∈ offsets, offset < 0) ∨
          ∃ before earlier later after, offsets = before ++ earlier :: later :: after ∧
            later < earlier) ∧
      (Offsets.Ascending offsets → offsets.length * 4 < Size.bound →
        ∃ stored, (compressor.compressTable coders offsets).1 = .ok stored ∧
          ∀ (otherLayer : Layer) (reader : DeepCompressor), MadeFor otherLayer reader →
            otherLayer.method = layer.method →
              (reader.uncompressTable coders stored offsets.length).1 = .ok offsets ∧
              (layer.method = .zstd → ∀ pixels found,
                (reader.uncompressTable coders stored pixels).1 = .ok found →
                  pixels = offsets.length))) ∧
    ∀ (stored : Bytes) (pixels : Nat), pixels * 4 < Size.bound →
      (∃ found, (compressor.uncompressTable coders stored pixels).1 = .ok found ∧
        found.length = pixels ∧ Offsets.Ascending found ∧
        Offsets.total found = .ok (found.getLastD 0).toInt.toNat) ∨
      ∃ cause, (compressor.uncompressTable coders stored pixels).1 = .error (.invalid cause) := by
  refine ⟨?_, ?_⟩
  · intro offsets fits
    refine ⟨?_, ?_⟩
    · rw [← Offsets.not_ascending_iff]
      refine ⟨?_, compressTable_invalid⟩
      rintro ⟨cause, failed⟩ ascending
      obtain ⟨stored, compressed⟩ := exists_compressTable frames bounds dictionaries made.serves
        ascending fits
      rw [compressed] at failed
      cases failed
    · intro ascending word
      obtain ⟨stored, compressed⟩ := exists_compressTable frames bounds dictionaries made.serves
        ascending fits
      refine ⟨stored, compressed, ?_⟩
      intro otherLayer reader read same
      have sameMethod := read.serves.method.trans same
      refine ⟨uncompressTable_compressTable zlib frames dictionaries made.serves sameMethod
        ascending word compressed, ?_⟩
      intro method pixels found decoded
      exact pixels_of_uncompressTable frames dictionaries made.serves method sameMethod ascending
        word compressed decoded
  · intro stored pixels word
    rcases (invalidAtWorst_uncompressTable word).cases with ⟨found, read⟩ | failed
    · obtain ⟨length, ascending⟩ := ascending_of_uncompressTable read
      exact .inl ⟨found, read, length, ascending, Offsets.total_eq_ok_iff.mpr ⟨ascending, rfl⟩⟩
    · exact .inr failed

/-- The frame of the prepared table of three offsets. -/
def tableRecording : Coders.Recording where
  streams := .empty
  frames :=
    { entries := [
        ([1, 1, 4, 0, 0, 0, 0, 0, 0, 0, 0, 0],
          [40, 181, 47, 253, 32, 12, 97, 0, 0, 1, 1, 4, 0, 0, 0, 0, 0, 0, 0, 0, 0])]
      distinct := by decide
      unmarked := by decide }
  bounded := by decide

/-- A table of three offsets goes through the envelope of an instance for other channels and
another level, and is read for three pixels only. A table that decreases is refused, and so is
an envelope whose chunk is cut off. -/
theorem table_roundTrip_three :
    (∃ cause, (deepWriter.compressTable tableRecording.coders [1, 4, 3]).1 =
      .error (.invalid cause)) ∧
    (∃ stored, (deepWriter.compressTable tableRecording.coders [1, 1, 4]).1 = .ok stored ∧
      ({ deepReader with channels := reorderedLayer.channels }.uncompressTable
        tableRecording.coders stored 3).1 = .ok [1, 1, 4] ∧
      ∀ pixels found,
        ({ deepReader with channels := reorderedLayer.channels }.uncompressTable
          tableRecording.coders stored pixels).1 = .ok found → pixels = 3) ∧
    ∃ cause, (deepWriter.uncompressTable tableRecording.coders [0, 0, 0, 0, 9, 0, 0, 0, 67] 3).1 =
      .error (.invalid cause) := by
  have changed : Defaults.Reachable { Defaults.initial with zip := 9, zstd := 1 } :=
    Defaults.reachable_iff_valid.mpr ⟨by decide, by decide, by decide⟩
  have made : MadeFor deepLayer deepWriter := ⟨Defaults.initial, .initial, rfl⟩
  have read : MadeFor reorderedLayer { deepReader with channels := reorderedLayer.channels } :=
    ⟨_, changed, rfl⟩
  have laws := tableRecording.lawful
  obtain ⟨stores, reads⟩ := table_roundTrip laws.toZlibLaws laws.toFrameLaws laws.toFrameBounds
    laws.toDictionaryLaws made
  obtain ⟨refused, -⟩ := stores [1, 4, 3] fun _ => by decide
  obtain ⟨-, readable⟩ := stores [1, 1, 4] fun _ => by decide
  have counted : Offsets.total [1, 1, 4] = .ok 4 := rfl
  obtain ⟨stored, compressed, others⟩ := readable (Offsets.total_eq_ok_iff.mp counted).1 (by decide)
  obtain ⟨restored, only⟩ := others reorderedLayer _ read rfl
  refine ⟨refused.mpr (.inr ⟨[1], 4, 3, [], rfl, by decide⟩),
    ⟨stored, compressed, restored, only rfl⟩, ?_⟩
  rcases reads [0, 0, 0, 0, 9, 0, 0, 0, 67] 3 (by decide) with ⟨found, succeeded, -⟩ | failed
  · cases succeeded
  · exact failed

end Calls

end PixelBlocks.DeepCompressor

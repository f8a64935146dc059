import Mathlib.Algebra.Group.Nat.Defs
import PixelBlocks.Proofs.Chunk.Header

/-!
# Every chunk header has one written form

A header of 28 bytes says everything once or says it again consistently: the flags repeat
two other fields, and what is reserved is zero. So a reader that accepts 28 bytes knows all
of them from the header it found, and writing this header gives them back. In the other
direction a writer has to keep to the parameters that readers accept and to sizes that fit
into their fields; then what it writes is read as what was meant, in front of any bytes.
-/

namespace PixelBlocks.ChunkHeader

variable {header : ChunkHeader} {bytes front rest : Bytes}

/-- A header is written completely exactly if both sizes fit into their fields, and then as
its layout. -/
theorem write_eq_ok_iff :
    header.write = (front, .ok ()) ↔
      (header.dictionary < 0x100000000 ∧ header.payload < 0x100000000) ∧
        front = header.layout := by
  rw [← encode_eq_ok_iff]
  constructor
  · intro written
    rw [encode, written]
  · intro encoded
    rcases written : header.write with ⟨some, outcome⟩
    rw [encode, written] at encoded
    cases outcome with
    | ok finished =>
      cases encoded
      rfl
    | error fault => cases encoded

/-- Bytes are read as a header exactly if the header has valid parameters and the bytes
begin with its written form. -/
theorem read_eq_ok_iff :
    read bytes = .ok (header, rest) ↔
      header.parameters.validate = .ok () ∧
        ∃ front, header.write = (front, .ok ()) ∧ bytes = front ++ rest := by
  constructor
  · intro found
    obtain ⟨joined, valid, fits⟩ := eq_layout_append_of_read found
    exact ⟨valid, header.layout, write_eq_ok_iff.mpr ⟨fits, rfl⟩, joined⟩
  · rintro ⟨valid, front, written, rfl⟩
    obtain ⟨⟨dictionaryFits, payloadFits⟩, rfl⟩ := write_eq_ok_iff.mp written
    exact read_layout_append valid dictionaryFits payloadFits rest

/-- A written form has 28 bytes. -/
theorem length_of_write (written : header.write = (front, .ok ())) : front.length = 28 := by
  obtain ⟨-, rfl⟩ := write_eq_ok_iff.mp written
  exact length_layout header

/-- What is read as a header is valid, takes 28 bytes and is written as these bytes, so the
bytes of a header are determined by it. A header with valid parameters, whose sizes fit into
their fields, is written in 28 bytes, and these are read as the header in front of any other
bytes, which are left over. -/
theorem read_write_canonical :
    (∀ (bytes rest : Bytes) (header : ChunkHeader), read bytes = .ok (header, rest) →
      header.parameters.validate = .ok () ∧ 28 ≤ bytes.length ∧ rest = bytes.drop 28 ∧
        header.write = (bytes.take 28, .ok ())) ∧
    (∀ (first second firstRest secondRest : Bytes) (header : ChunkHeader),
      read first = .ok (header, firstRest) → read second = .ok (header, secondRest) →
        first.take 28 = second.take 28) ∧
    (∀ header : ChunkHeader, header.parameters.validate = .ok () →
      header.dictionary < 2 ^ 32 → header.payload < 2 ^ 32 →
        ∃ front, header.write = (front, .ok ()) ∧ front.length = 28 ∧
          ∀ rest, read (front ++ rest) = .ok (header, rest)) := by
  have known : ∀ (bytes rest : Bytes) (header : ChunkHeader), read bytes = .ok (header, rest) →
      header.parameters.validate = .ok () ∧ 28 ≤ bytes.length ∧ rest = bytes.drop 28 ∧
        header.write = (bytes.take 28, .ok ()) := by
    intro bytes rest header found
    obtain ⟨valid, front, written, rfl⟩ := read_eq_ok_iff.mp found
    have long := length_of_write written
    refine ⟨valid, ?_, (List.drop_left' long).symm, ?_⟩
    · rw [List.length_append, long]
      exact Nat.le_add_right 28 rest.length
    · rw [List.take_left' long]
      exact written
  refine ⟨known, ?_, ?_⟩
  · intro first second firstRest secondRest header one other
    obtain ⟨-, -, -, written⟩ := known first firstRest header one
    obtain ⟨-, -, -, again⟩ := known second secondRest header other
    exact congrArg Prod.fst (written.symm.trans again)
  · intro header valid dictionaryFits payloadFits
    have written : header.write = (header.layout, .ok ()) :=
      write_eq_ok_iff.mpr ⟨⟨dictionaryFits, payloadFits⟩, rfl⟩
    refine ⟨header.layout, written, length_of_write written, ?_⟩
    intro rest
    exact read_eq_ok_iff.mpr ⟨valid, header.layout, written, rfl⟩

/-- A header with both flags: truncated floats and a dictionary. More than four gigabytes
were compressed. -/
def flagged : ChunkHeader := ⟨⟨4, 9, .truncate⟩, 0x123456789, 300, 70000⟩

/-- The bytes of this header. -/
def flaggedBytes : Bytes :=
  [0x45, 0x58, 0x5a, 0x43, 1, 3, 1, 4, 9, 0, 0, 0, 0x89, 0x67, 0x45, 0x23, 1, 0, 0, 0,
    44, 1, 0, 0, 112, 17, 1, 0]

/-- The header is written as its bytes and read from them, with two more bytes left over. -/
theorem read_write_canonical_flagged :
    flagged.write = (flaggedBytes, .ok ()) ∧
    (∀ other otherRest : Bytes, read other = .ok (flagged, otherRest) →
      (flaggedBytes ++ [5, 6]).take 28 = other.take 28) ∧
    ∃ front, flagged.write = (front, .ok ()) ∧ front.length = 28 ∧
      read (front ++ [5, 6]) = .ok (flagged, [5, 6]) := by
  have found : read (flaggedBytes ++ [5, 6]) = .ok (flagged, [5, 6]) := rfl
  obtain ⟨known, only, readable⟩ := read_write_canonical
  obtain ⟨-, -, -, written⟩ := known _ _ _ found
  obtain ⟨front, fronted, long, reads⟩ := readable flagged rfl (by decide) (by decide)
  refine ⟨written, ?_, front, fronted, long, reads [5, 6]⟩
  intro other otherRest again
  exact only _ _ _ _ _ found again

end PixelBlocks.ChunkHeader

import Mathlib.Tactic.MkIffOfInductiveProp
import PixelBlocks.Proofs.Chunk.Canonical

/-!
# Written headers that no reader should accept

Writing a header checks only the two sizes that have four bytes. Other parameters are written
as they are, and readers find those that are not valid. A sample size has one byte, and a
larger one is cut to its remainder without a check. Readers see only the remainder. So they
refuse what was written, unless the remainder is valid together with the level and the
preprocessing. Then they find another header.
-/

namespace PixelBlocks.ChunkHeader

/-- A header that is not valid, but whose bytes are those of a valid one. -/
@[mk_iff] structure Disguised (header : ChunkHeader) : Prop where
  wide : 255 < header.parameters.typeSize
  remains : header.parameters.typeSize % 256 ≠ 0
  level : 1 ≤ header.parameters.level ∧ header.parameters.level ≤ 9
  truncating : header.parameters.preprocessing = .truncate →
    header.parameters.typeSize % 256 = 4

instance (header : ChunkHeader) : Decidable header.Disguised :=
  decidable_of_iff _ (disguised_iff header).symm

variable {header : ChunkHeader}

/-- Of the headers that are not valid, the narrowed form is valid for the disguised ones. -/
theorem validate_narrowed_eq_ok_iff (unfit : header.parameters.validate ≠ .ok ()) :
    header.narrowed.parameters.validate = .ok () ↔ header.Disguised := by
  rw [ne_eq, ChunkParameters.validate_eq_ok_iff] at unfit
  rw [ChunkParameters.validate_eq_ok_iff, disguised_iff]
  dsimp only [narrowed]
  constructor
  · rintro ⟨level, ⟨remains, -⟩, truncating⟩
    refine ⟨?_, Nat.ne_of_gt remains, level, truncating⟩
    -- A sample size that fits into a byte is its own remainder, so the header would be valid.
    by_contra narrow
    rw [Nat.mod_eq_of_lt (by omega)] at remains truncating
    exact unfit ⟨level, ⟨remains, by omega⟩, truncating⟩
  · rintro ⟨-, remains, level, truncating⟩
    exact ⟨level, ⟨Nat.pos_of_ne_zero remains, by omega⟩, truncating⟩

/-- Writing stops at the first size that has more than four bytes. -/
theorem write_snd (header : ChunkHeader) :
    header.write.2 =
      if 0x100000000 ≤ header.dictionary then .error (.invalid .dictionaryTooLarge)
      else if 0x100000000 ≤ header.payload then .error (.invalid .payloadTooLarge)
      else .ok () := by
  by_cases dictionaryLarge : 0x100000000 ≤ header.dictionary
  · simp [write, fields, writeFields, sizeField, dictionaryLarge]
  · by_cases payloadLarge : 0x100000000 ≤ header.payload
    · simp [write, fields, writeFields, sizeField, dictionaryLarge, payloadLarge]
    · simp [write, fields, writeFields, sizeField, dictionaryLarge, payloadLarge]

/-- What becomes of every header with parameters that are not valid. Writing it fails for the
first size that does not fit into four bytes. Otherwise it is written, and what was written is
refused for its parameters, in front of any other bytes, unless the header is disguised. A
disguised header is read as its narrowed form, which is another one. -/
theorem write_unfit (header : ChunkHeader) (unfit : header.parameters.validate ≠ .ok ()) :
    (0x100000000 ≤ header.dictionary →
      header.write.2 = .error (.invalid .dictionaryTooLarge)) ∧
    (header.dictionary < 0x100000000 → 0x100000000 ≤ header.payload →
      header.write.2 = .error (.invalid .payloadTooLarge)) ∧
    (header.dictionary < 0x100000000 → header.payload < 0x100000000 →
      ∃ front, header.write = (front, .ok ()) ∧ ∀ rest,
        read (front ++ rest) =
          if header.Disguised then .ok (header.narrowed, rest)
          else .error (.invalid .chunkParameters)) ∧
    (header.Disguised → header.narrowed ≠ header) := by
  refine ⟨fun large => ?_, fun fits large => ?_, fun dictionaryFits payloadFits => ?_, ?_⟩
  · rw [write_snd, if_pos large]
  · rw [write_snd, if_neg (by omega), if_pos large]
  · refine ⟨header.layout, write_eq_ok_iff.mpr ⟨⟨dictionaryFits, payloadFits⟩, rfl⟩, ?_⟩
    intro rest
    rw [read_layout_append_eq dictionaryFits payloadFits]
    by_cases disguised : header.Disguised
    · rw [if_pos disguised, (validate_narrowed_eq_ok_iff unfit).mpr disguised]
    · rw [if_neg disguised]
      cases checked : header.narrowed.parameters.validate with
      | ok accepted => exact absurd ((validate_narrowed_eq_ok_iff unfit).mp checked) disguised
      | error fault => rfl
  · intro disguised same
    have narrow := narrowed_eq_self_iff.mp same
    have wide := disguised.wide
    omega

/-- A sample size of 258 leaves two, which truncation refuses. A dictionary of 4 GiB is not
written, and a disguised header is read as its narrowed form. -/
theorem write_unfit_truncating :
    let floats : ChunkHeader := ⟨⟨258, 5, .truncate⟩, 10, 0, 5⟩
    let large : ChunkHeader := ⟨⟨0, 5, .shuffle⟩, 10, 0x100000000, 5⟩
    let wide : ChunkHeader := ⟨⟨511, 9, .dictionary⟩, 10, 3, 5⟩
    (∃ front, floats.write = (front, .ok ()) ∧
      read (front ++ [7]) = .error (.invalid .chunkParameters)) ∧
    large.write.2 = .error (.invalid .dictionaryTooLarge) ∧
    ∃ front, wide.write = (front, .ok ()) ∧
      read (front ++ [7]) = .ok (⟨⟨255, 9, .dictionary⟩, 10, 3, 5⟩, [7]) := by
  obtain ⟨-, -, refused, -⟩ := write_unfit ⟨⟨258, 5, .truncate⟩, 10, 0, 5⟩ (by decide)
  obtain ⟨unwritten, -, -, -⟩ := write_unfit ⟨⟨0, 5, .shuffle⟩, 10, 0x100000000, 5⟩ (by decide)
  obtain ⟨-, -, misread, -⟩ := write_unfit ⟨⟨511, 9, .dictionary⟩, 10, 3, 5⟩ (by decide)
  obtain ⟨floats, written, outcome⟩ := refused (by decide) (by decide)
  obtain ⟨wide, complete, found⟩ := misread (by decide) (by decide)
  exact ⟨⟨floats, written, outcome [7]⟩, unwritten (by decide), wide, complete, found [7]⟩

/-- A sample size of 260 is not valid, but it leaves four, and is read as that. -/
theorem write_unfit_disguised :
    let header : ChunkHeader := ⟨⟨260, 5, .shuffle⟩, 10, 0, 5⟩
    header.parameters.validate = .error (.configuration (.typeSize 260)) ∧
      ∃ front, header.write = (front, .ok ()) ∧
        read front = .ok (⟨⟨4, 5, .shuffle⟩, 10, 0, 5⟩, []) :=
  ⟨by decide, _, rfl, by decide⟩

end PixelBlocks.ChunkHeader

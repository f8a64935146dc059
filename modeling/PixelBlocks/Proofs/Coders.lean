import PixelBlocks.Coders

/-!
# Coders with recordings

The simplest lawful coders put a zero byte in front of what they encode. Recordings let
them treat some contents as other coders do: they name the zlib streams and the frames
that such coders made. These differ from each other and do not start with zero.
-/

namespace PixelBlocks.Coders

/-- Contents with their encoded forms. -/
structure Table where
  entries : List (Bytes × Bytes)
  distinct : (entries.map Prod.snd).Nodup
  unmarked : ∀ form ∈ entries.map Prod.snd, form.head?.getD 0 ≠ 0

namespace Table

/-- No content is recorded. -/
def empty : Table := ⟨[], List.nodup_nil, fun _ member => (List.not_mem_nil member).elim⟩

/-- The form of the first entry with a content, or else the marked content. -/
def encode : List (Bytes × Bytes) → Bytes → Bytes
  | [], bytes => 0 :: bytes
  | (content, form) :: rest, bytes => if bytes = content then form else encode rest bytes

/-- The content of a form. -/
def find : List (Bytes × Bytes) → Bytes → Option Bytes
  | [], stored => if stored.head? = some 0 then some stored.tail else none
  | (content, form) :: rest, stored => if stored = form then some content else find rest stored

/-- The content of a form, if it has at most `limit` bytes. -/
def decode (entries : List (Bytes × Bytes)) (limit : Nat) (stored : Bytes) : Option Bytes :=
  (find entries stored).filter fun bytes => bytes.length ≤ limit

/-- A content is encoded by an entry or marked. -/
theorem encode_cases (entries : List (Bytes × Bytes)) (bytes : Bytes) :
    (bytes, encode entries bytes) ∈ entries ∨ encode entries bytes = 0 :: bytes := by
  induction entries with
  | nil => exact .inr rfl
  | cons entry rest inductionHypothesis =>
    obtain ⟨content, form⟩ := entry
    by_cases recorded : bytes = content
    · subst recorded
      rw [encode, if_pos rfl]
      exact .inl List.mem_cons_self
    · rw [encode, if_neg recorded]
      rcases inductionHypothesis with later | marked
      · exact .inl (List.mem_cons_of_mem _ later)
      · exact .inr marked

/-- The content of an encoded form is found. No other entry has this form, and no entry
has a marked one. -/
theorem find_encode {entries : List (Bytes × Bytes)} (distinct : (entries.map Prod.snd).Nodup)
    (unmarked : ∀ form ∈ entries.map Prod.snd, form.head?.getD 0 ≠ 0) (bytes : Bytes) :
    find entries (encode entries bytes) = some bytes := by
  induction entries with
  | nil => rfl
  | cons entry rest inductionHypothesis =>
    obtain ⟨content, form⟩ := entry
    obtain ⟨alone, later⟩ := List.nodup_cons.mp distinct
    have found := inductionHypothesis later fun form member =>
      unmarked form (List.mem_cons_of_mem _ member)
    by_cases recorded : bytes = content
    · rw [encode, if_pos recorded, find, if_pos rfl, recorded]
    · have other : ¬ encode rest bytes = form := by
        intro same
        rcases encode_cases rest bytes with inside | marked
        · exact alone (List.mem_map.mpr ⟨_, inside, same⟩)
        · exact unmarked form List.mem_cons_self (by rw [← same, marked]; rfl)
      rw [encode, if_neg recorded, find, if_neg other, found]

/-- Forms decode to their content within any limit that it respects. -/
theorem decode_encode (table : Table) {limit : Nat} {bytes : Bytes} (fits : bytes.length ≤ limit) :
    decode table.entries limit (encode table.entries bytes) = some bytes := by
  rw [decode, find_encode table.distinct table.unmarked]
  simp [fits]

/-- No form is empty. -/
theorem encode_ne_nil (table : Table) (bytes : Bytes) : encode table.entries bytes ≠ [] := by
  intro none
  rcases encode_cases table.entries bytes with inside | marked
  · exact table.unmarked _ (List.mem_map_of_mem inside) (by rw [none]; rfl)
  · rw [marked] at none
    cases none

/-- What is decoded respects the limit. -/
theorem length_decode {entries : List (Bytes × Bytes)} {stored bytes : Bytes} {limit : Nat}
    (decoded : decode entries limit stored = some bytes) : bytes.length ≤ limit := by
  have kept := (Option.filter_eq_some_iff.mp decoded).2
  simpa using kept

end Table

/-- Zlib streams and frames of some contents. The frames keep the bound. -/
structure Recording where
  streams : Table
  frames : Table
  bounded : ∀ entry ∈ frames.entries, entry.2.length ≤ standardFrameBound entry.1.length

namespace Recording

/-- Zlib streams of some contents, and no frames. -/
def ofStreams (streams : Table) : Recording where
  streams := streams
  frames := .empty
  bounded _ member := (List.not_mem_nil member).elim

/-- Coders that use the recordings and train no dictionaries. -/
def coders (recording : Recording) : Coders where
  deflate _ bytes := Table.encode recording.streams.entries bytes
  inflate limit stream := Table.decode recording.streams.entries limit stream
  levels := ⟨1, 22⟩
  frameBound := standardFrameBound
  compress _ bytes := some (Table.encode recording.frames.entries bytes)
  decompress limit frame := Table.decode recording.frames.entries limit frame
  train _ _ _ := none
  compressWith _ _ _ := none
  decompressWith _ _ _ := none

/-- There is room for one more byte in any frame. -/
theorem lt_standardFrameBound (size : Nat) : size < standardFrameBound size := by
  unfold standardFrameBound
  split <;> omega

/-- The recorded coders are lawful. -/
theorem lawful (recording : Recording) : recording.coders.Lawful where
  inflate_deflate _ _ _ _ fits := recording.streams.decode_encode fits
  deflate_ne_nil _ bytes _ := recording.streams.encode_ne_nil bytes
  decompress_compress _ _ _ _ compressed fits := by
    cases compressed
    exact recording.frames.decode_encode fits
  compress_isSome _ _ := rfl
  compress_bounds _ bytes _ compressed := by
    cases compressed
    refine ⟨List.length_pos_iff.mpr (recording.frames.encode_ne_nil bytes), ?_⟩
    rcases Table.encode_cases recording.frames.entries bytes with inside | marked
    · exact recording.bounded _ inside
    · rw [marked]
      exact lt_standardFrameBound bytes.length
  frameBound_eq _ _ := rfl
  train_ne_nil _ _ _ _ trained := by cases trained
  compressWith_ne_nil _ _ _ _ compressed := by cases compressed
  decompressWith_compressWith _ _ _ _ _ compressed := by cases compressed
  length_inflate _ _ _ decoded := Table.length_decode decoded
  length_decompress _ _ _ decoded := Table.length_decode decoded
  length_decompressWith _ _ _ _ decoded := by cases decoded

/-- The recorded coders train no dictionary, so none is too large. -/
theorem trainingLimit (recording : Recording) : recording.coders.TrainingLimit where
  length_train _ _ _ _ trained := by cases trained

end Recording

end PixelBlocks.Coders

/-!
# Rows of equal length

Byte planes and shuffled samples are tables that are written row by row. If all
rows are equally long, the place of an entry follows from its row and its column.
-/

namespace PixelBlocks.Rows

variable {Entry : Type} {columns : Nat} {row : Nat → List Entry}

/-- Rows of equal length fill a rectangle. -/
theorem length_flatMap (even : ∀ index, (row index).length = columns) (rows : Nat) :
    ((List.range rows).flatMap row).length = rows * columns := by
  induction rows with
  | zero => simp
  | succ rows inductionHypothesis =>
    rw [List.range_succ, List.flatMap_append, List.length_append, inductionHypothesis]
    simp [even, Nat.succ_mul]

/-- The place of an entry lies within the rectangle. -/
theorem place_lt {columns rows index column : Nat} (inside : index < rows)
    (within : column < columns) : index * columns + column < rows * columns := by
  have step : (index + 1) * columns ≤ rows * columns := Nat.mul_le_mul_right columns inside
  rw [Nat.succ_mul] at step
  omega

/-- No two entries have the same place. -/
theorem place_inj {columns index column otherIndex otherColumn : Nat} (within : column < columns)
    (otherWithin : otherColumn < columns)
    (same : index * columns + column = otherIndex * columns + otherColumn) :
    index = otherIndex ∧ column = otherColumn := by
  have quotients := congrArg (· / columns) same
  have positive : 0 < columns := by omega
  simp only [Nat.mul_comm _ columns, Nat.mul_add_div positive, Nat.div_eq_of_lt within,
    Nat.div_eq_of_lt otherWithin, Nat.add_zero] at quotients
  subst quotients
  exact ⟨rfl, Nat.add_left_cancel same⟩

/-- The entry of a row and a column lies behind all entries of the rows before. -/
theorem getElem?_flatMap (even : ∀ index, (row index).length = columns) {rows index column : Nat}
    (inside : index < rows) (within : column < columns) :
    ((List.range rows).flatMap row)[index * columns + column]? = (row index)[column]? := by
  induction rows with
  | zero => exact absurd inside (Nat.not_lt_zero index)
  | succ rows inductionHypothesis =>
    have before := length_flatMap even rows
    rw [List.range_succ, List.flatMap_append, List.flatMap_singleton]
    by_cases earlier : index < rows
    · have above := place_lt earlier within
      rw [List.getElem?_append_left (by rwa [before]), inductionHypothesis earlier]
    · have last : index = rows := by omega
      subst last
      rw [List.getElem?_append_right (by rw [before]; exact Nat.le_add_right _ _), before,
        Nat.add_sub_cancel_left]

/-- A list is made of rows if each row and column has the entry at its place. -/
theorem flatMap_eq (even : ∀ index, (row index).length = columns) {rows : Nat}
    {entries : List Entry} (sized : entries.length = rows * columns)
    (same : ∀ index column, index < rows → column < columns →
      (row index)[column]? = entries[index * columns + column]?) :
    (List.range rows).flatMap row = entries := by
  have length := length_flatMap even rows
  apply List.ext_getElem?
  intro place
  by_cases inside : place < rows * columns
  · have positive : 0 < columns := by
      rcases Nat.eq_zero_or_pos columns with none | some
      · simp [none] at inside
      · exact some
    have index : place / columns < rows := (Nat.div_lt_iff_lt_mul positive).mpr inside
    have column : place % columns < columns := Nat.mod_lt place positive
    have split : place / columns * columns + place % columns = place := Nat.div_add_mod' ..
    rw [← split, getElem?_flatMap even index column, same _ _ index column]
  · rw [List.getElem?_eq_none (by omega), List.getElem?_eq_none (by omega)]

end PixelBlocks.Rows

import PixelBlocks.Proofs.Geometry.Rectangle

/-!
# Multiples among consecutive integers

A sampling factor picks the rows and columns whose numbers it divides. Among consecutive
integers there are as many of them as the factor fits into their number, or one more: how many
depends on how far the first integer is from a multiple. Integers that start at a multiple have
the most.
-/

namespace PixelBlocks

/-- As many consecutive integers as asked for, from the first on. -/
def interval (first : Int) (count : Nat) : List Int :=
  (List.range count).map fun index : Nat => first + index

/-- How many of consecutive integers a factor divides. -/
def multiples (factor : Nat) (first : Int) (count : Nat) : Nat :=
  (interval first count).countP fun number => (factor : Int) ∣ number

/-- Consecutive integers are those from the first on, as many as asked for. -/
theorem mem_interval_iff {first number : Int} {count : Nat} :
    number ∈ interval first count ↔ first ≤ number ∧ number < first + count := by
  simp only [interval, List.mem_map, List.mem_range]
  constructor
  · rintro ⟨index, inside, rfl⟩
    omega
  · rintro ⟨least, most⟩
    exact ⟨(number - first).toNat, by omega, by omega⟩

/-- The rows of a rectangle are consecutive integers. -/
theorem Rectangle.rows_eq_interval (rectangle : Rectangle) :
    rectangle.rows = interval rectangle.position.y.toInt rectangle.size.y.toNat := rfl

/-- So they are those from its first on, as many as it has. -/
theorem Rectangle.mem_rows_iff {rectangle : Rectangle} {row : Int} :
    row ∈ rectangle.rows ↔ rectangle.position.y.toInt ≤ row ∧
      row < rectangle.position.y.toInt + rectangle.size.y.toNat := by
  rw [rows_eq_interval, mem_interval_iff]

/-- Consecutive integers go on where the ones before them end. -/
theorem interval_add (first : Int) (count more : Nat) :
    interval first (count + more) = interval first count ++ interval (first + count) more := by
  simp only [interval, List.range_add, List.map_append, List.map_map]
  refine congrArg _ (List.map_congr_left fun index _ => ?_)
  simp only [Function.comp_apply]
  omega

variable {factor : Nat} {first : Int} {count : Nat}

/-- So do their multiples. -/
theorem multiples_add (factor : Nat) (first : Int) (count more : Nat) :
    multiples factor first (count + more) =
      multiples factor first count + multiples factor (first + count) more := by
  rw [multiples, interval_add, List.countP_append]
  rfl

/-- There is no multiple exactly if the factor divides none of the integers. -/
theorem multiples_eq_zero_iff :
    multiples factor first count = 0 ↔
      ∀ number, first ≤ number → number < first + count → ¬ (factor : Int) ∣ number := by
  simp [multiples, List.countP_eq_zero, mem_interval_iff]

/-- Every integer is a multiple of one. -/
theorem multiples_one (first : Int) (count : Nat) : multiples 1 first count = count := by
  simp [multiples, interval]

/-- Multiples are counted by a quotient, to whose dividend the distance is added that the first
integer has from behind the last multiple before it. -/
theorem multiples_eq (positive : 0 < factor) (first : Int) (count : Nat) :
    multiples factor first count = (count + ((first - 1) % factor).toNat) / factor := by
  have behind := Int.emod_nonneg (first - 1) (Int.natCast_ne_zero.mpr (Nat.ne_of_gt positive))
  have before := Int.emod_lt_of_pos (first - 1) (Int.natCast_pos.mpr positive)
  induction count with
  | zero => rw [Nat.zero_add, Nat.div_eq_of_lt (by omega)]; rfl
  | succ count inductionHypothesis =>
    -- the new integer lies a multiple of the factor behind the new dividend
    have split := Int.mul_ediv_add_emod (first - 1) factor
    have shifted : first + count = ((count + ((first - 1) % factor).toNat + 1 : Nat) : Int) +
        factor * ((first - 1) / factor) := by omega
    have divides : (factor : Int) ∣ first + count ↔
        factor ∣ count + ((first - 1) % factor).toNat + 1 := by
      rw [shifted, Int.dvd_add_left (Int.dvd_mul_right _ _), Int.natCast_dvd_natCast]
    have last : multiples factor (first + count) 1 =
        if factor ∣ count + ((first - 1) % factor).toNat + 1 then 1 else 0 := by
      simp [multiples, interval, divides]
    rw [multiples_add, inductionHypothesis, last, ← Nat.succ_div, Nat.add_right_comm]

/-- A number of integers that the factor divides has as many multiples as the quotient says,
wherever they start. -/
theorem multiples_mul (positive : 0 < factor) (first : Int) (groups : Nat) :
    multiples factor first (groups * factor) = groups := by
  have behind := Int.emod_nonneg (first - 1) (Int.natCast_ne_zero.mpr (Nat.ne_of_gt positive))
  have before := Int.emod_lt_of_pos (first - 1) (Int.natCast_pos.mpr positive)
  rw [multiples_eq positive, Nat.add_comm, Nat.add_mul_div_right _ _ positive,
    Nat.div_eq_of_lt (by omega), Nat.zero_add]

/-- The multiples are those in groups of the factor and those left over behind the groups. -/
theorem multiples_eq_div_add (positive : 0 < factor) (first : Int) (count : Nat) :
    multiples factor first count = count / factor +
      multiples factor (first + (count / factor * factor : Nat)) (count % factor) := by
  have whole : count = count / factor * factor + count % factor := by
    rw [Nat.mul_comm, Nat.div_add_mod]
  conv_lhs => rw [whole]
  rw [multiples_add, multiples_mul positive]

/-- At least as many integers from a multiple on have at least as many multiples. -/
theorem multiples_le (positive : 0 < factor) {start : Int} (aligned : (factor : Int) ∣ start)
    {most : Nat} (fewer : count ≤ most) (first : Int) :
    multiples factor first count ≤ multiples factor start most := by
  have before := Int.emod_lt_of_pos (first - 1) (Int.natCast_pos.mpr positive)
  have furthest : (start - 1) % factor = factor - 1 := by
    obtain ⟨quotient, rfl⟩ := aligned
    have same : (factor : Int) * quotient - 1 = factor - 1 + factor * (quotient - 1) := by
      rw [Int.mul_sub]
      omega
    rw [same, Int.add_mul_emod_self_left, Int.emod_eq_of_lt (by omega) (by omega)]
  rw [multiples_eq positive, multiples_eq positive, furthest]
  exact Nat.div_le_div_right (by omega)

-- Four integers have two multiples of three if they start at one, and else one.
example : multiples 3 (-3) 4 = 2 ∧ multiples 3 (-2) 4 = 1 := by decide

end PixelBlocks

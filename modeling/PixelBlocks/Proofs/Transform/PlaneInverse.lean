import PixelBlocks.Proofs.Transform.Planes

/-!
# Every table of planes is that of a block

Planes hold the differences of pixels without gaps: whatever their bytes are, the digits of a
column spell a difference, the running sums of the differences are pixels, and the pixels
have these differences. So decoding loses nothing of the planes, and encoding the decoded
block gives them back. Running sums of floats only have their 24 leading bits, which rounding
leaves alone. Hence the decoded blocks are those whose floats end in a zero byte.
-/

namespace PixelBlocks.Planes

section Digits

variable {table : Array UInt8} {count samples index : Nat}

/-- The next plane appends a digit to the number. -/
theorem join_succ (table : Array UInt8) (count samples index : Nat) :
    join table (count + 1) samples index =
      (join table count samples index <<< 8) |||
        (table.getD (count * samples + index) 0).toUInt32 := by
  rw [join, List.range_succ, List.foldl_append]
  rfl

/-- A number has as many digits as there are planes. -/
theorem toNat_join_lt (narrow : count ≤ 4) :
    (join table count samples index).toNat < 256 ^ count := by
  induction count with
  | zero => exact Nat.one_pos
  | succ count inductionHypothesis =>
    have before := inductionHypothesis (by omega)
    have room : 256 ^ count ≤ 2 ^ 24 :=
      Nat.le_trans (Nat.pow_le_pow_right (by decide) (show count ≤ 3 by omega)) (by decide)
    have digit := (table.getD (count * samples + index) 0).toNat_lt
    rw [join_succ, toNat_joinByte (by omega), Nat.pow_succ]
    omega

/-- The digits of a number are the bytes of its column, the highest first. The induction is on
the planes: one more plane moves all digits up by one place. -/
theorem digit_join (narrow : count ≤ 4) {place : Nat} (inside : place < count) :
    (join table count samples index).toNat / 256 ^ (count - 1 - place) % 256 =
      (table.getD (place * samples + index) 0).toNat := by
  induction count with
  | zero => exact absurd inside (Nat.not_lt_zero place)
  | succ count inductionHypothesis =>
    have before : (join table count samples index).toNat < 256 ^ count :=
      toNat_join_lt (by omega)
    have room : 256 ^ count ≤ 2 ^ 24 :=
      Nat.le_trans (Nat.pow_le_pow_right (by decide) (show count ≤ 3 by omega)) (by decide)
    have digit := (table.getD (count * samples + index) 0).toNat_lt
    rw [join_succ, toNat_joinByte (by omega)]
    by_cases last : place = count
    · rw [last, Nat.add_sub_cancel, Nat.sub_self, Nat.pow_zero, Nat.div_one]
      omega
    · have higher : count + 1 - 1 - place = (count - 1 - place) + 1 := by omega
      have shifted : ((join table count samples index).toNat * 256 +
          (table.getD (count * samples + index) 0).toNat) / 256 =
            (join table count samples index).toNat := by omega
      rw [higher, Nat.pow_succ', ← Nat.div_div_eq_div_mul, shifted]
      exact inductionHypothesis (by omega) (by omega)

/-- Numbers that were joined from planes are split into these planes. -/
theorem split_map_join (narrow : count ≤ 4) {planes : Bytes}
    (filled : planes.length = count * samples) :
    split count ((List.range samples).map (join planes.toArray count samples)) = planes := by
  have even : ∀ place, (planeOf count place ((List.range samples).map
      (join planes.toArray count samples))).length = samples := by simp
  refine Rows.flatMap_eq even filled ?_
  intro place index inside within
  have stored : place * samples + index < planes.length := filled ▸ Rows.place_lt inside within
  have byte : (planes.toArray.getD (place * samples + index) 0) =
      planes[place * samples + index] := by
    simp [stored]
  rw [planeOf, List.map_map, List.getElem?_map, List.getElem?_range within,
    List.getElem?_eq_getElem stored, Option.map_some, Option.some_inj, ← byte]
  apply UInt8.toNat_inj.mp
  exact (toNat_planeByte _ narrow).trans (digit_join narrow inside)

/-- The planes of numbers are made of their kept bytes. -/
theorem split_map_kept (narrow : count ≤ 4) (numbers : List UInt32) :
    split count (numbers.map (kept count)) = split count numbers := by
  apply List.flatMap_congr
  intro place member
  have inside : place < count := List.mem_range.mp member
  rw [planeOf, planeOf, List.map_map]
  apply List.map_congr_left
  intro number _
  have below : 256 ^ count = 256 ^ (count - 1 - place) * 256 ^ (place + 1) := by
    rw [← Nat.pow_add]
    congr 1
    omega
  have word : number.toNat % 256 ^ count < 2 ^ 32 :=
    Nat.lt_of_le_of_lt (Nat.mod_le _ _) number.toNat_lt
  apply UInt8.toNat_inj.mp
  rw [Function.comp_apply, toNat_planeByte _ narrow, toNat_planeByte _ narrow, kept,
    UInt32.toNat_ofNat', Nat.mod_eq_of_lt word, below, Nat.mod_mul_right_div_self,
    Nat.mod_mod_of_dvd _ ⟨256 ^ place, Nat.pow_succ'⟩]

end Digits

section Sums

variable {type : SampleType} {total : UInt32}

/-- The pixel that stands for the stored bytes of a running sum. -/
def pixelOfSum (type : SampleType) (total : UInt32) : UInt32 :=
  pixelOf type (total.toNat % 256 ^ type.byteSize)

/-- A running sum of floats has 24 leading bits only. -/
def Settled (type : SampleType) (total : UInt32) : Prop :=
  type = .float → total.toNat % 256 = 0

/-- Rounding only shifts floats that end in a zero byte. -/
theorem toNat_to24_of_mod {bits : UInt32} (cut : bits.toNat % 256 = 0) :
    (Rounding.to24 bits).toNat = bits.toNat / 256 := by
  have word := bits.toNat_lt
  have leading : (UInt32.ofNat (bits.toNat / 256)).toNat = bits.toNat / 256 := by
    rw [UInt32.toNat_ofNat']
    omega
  have same : Rounding.from24 (UInt32.ofNat (bits.toNat / 256)) = bits := by
    apply UInt32.toNat_inj.mp
    rw [Rounding.toNat_from24, leading]
    omega
  rw [← same, Rounding.to24_from24 (by omega), leading, same]

/-- Adding a difference leads to the sum of a pixel with this difference. -/
theorem Settled.step (settled : Settled type total) {difference : UInt32}
    (small : difference.toNat < 256 ^ planeCount type) :
    Settled type (total + stepOf type difference) ∧
      kept (planeCount type)
        (pixelOfSum type (total + stepOf type difference) - pixelOfSum type total) =
          difference := by
  have totalWord := total.toNat_lt
  cases type with
  | uint =>
    refine ⟨by rintro ⟨⟩, ?_⟩
    apply UInt32.toNat_inj.mp
    simp only [planeCount, SampleType.byteSize, pixelOfSum, pixelOf, stepOf, kept,
      UInt32.toNat_ofNat', UInt32.toNat_sub, UInt32.toNat_add] at small ⊢
    omega
  | half =>
    refine ⟨by rintro ⟨⟩, ?_⟩
    apply UInt32.toNat_inj.mp
    simp only [planeCount, SampleType.byteSize, pixelOfSum, pixelOf, stepOf, kept,
      UInt32.toNat_ofNat', UInt32.toNat_sub, UInt32.toNat_add] at small ⊢
    omega
  | float =>
    have before : total.toNat % 256 = 0 := settled rfl
    have after : (total + stepOf .float difference).toNat % 256 = 0 := by
      simp only [stepOf, UInt32.toNat_add, Rounding.toNat_from24]
      omega
    have word : ∀ bits : UInt32, UInt32.ofNat (bits.toNat % 256 ^ SampleType.float.byteSize) =
        bits := by
      intro bits
      have width : 256 ^ SampleType.float.byteSize = 2 ^ 32 := rfl
      rw [width, Nat.mod_eq_of_lt bits.toNat_lt, UInt32.ofNat_toNat]
    refine ⟨fun _ => after, ?_⟩
    apply UInt32.toNat_inj.mp
    simp only [pixelOfSum, pixelOf, word, kept, UInt32.toNat_ofNat', UInt32.toNat_sub,
      toNat_to24_of_mod before, toNat_to24_of_mod after]
    simp only [planeCount, stepOf, UInt32.toNat_add, Rounding.toNat_from24] at small ⊢
    omega

/-- There are as many running sums as numbers. -/
@[simp] theorem length_sums (total : UInt32) (numbers : List UInt32) :
    (sums total numbers).length = numbers.length := by
  induction numbers generalizing total with
  | nil => rfl
  | cons number rest inductionHypothesis => simp [sums, inductionHypothesis]

/-- The pixels of running sums have the differences that were added. The induction is on the
differences, and carries the sum before. -/
theorem map_kept_differences (settled : Settled type total) {steps : List UInt32}
    (small : ∀ difference ∈ steps, difference.toNat < 256 ^ planeCount type) :
    (List.zipWith (· - ·) ((sums total (steps.map (stepOf type))).map (pixelOfSum type))
      (pixelOfSum type total ::
        (sums total (steps.map (stepOf type))).map (pixelOfSum type))).map
          (kept (planeCount type)) = steps := by
  induction steps generalizing total with
  | nil => rfl
  | cons difference rest inductionHypothesis =>
    obtain ⟨here, later⟩ := List.forall_mem_cons.mp small
    obtain ⟨next, same⟩ := settled.step here
    rw [List.map_cons, sums, List.map_cons, List.zipWith_cons_cons, List.map_cons, same,
      inductionHypothesis next later]

end Sums

section Segments

variable {segment : Segment} {planes bytes : Bytes}

/-- The planes of a decoded segment are those it was decoded from. -/
theorem encodeSegment_decodeSegment
    (filled : planes.length = segment.samples * planeCount segment.type) :
    encodeSegment segment (decodeSegment segment planes) = planes := by
  obtain ⟨type, samples⟩ := segment
  have narrow : planeCount type ≤ 4 := by cases type <;> decide
  have start : Settled type 0 := fun _ => rfl
  have zero : pixelOfSum type 0 = 0 := by cases type <;> rfl
  let steps := (List.range samples).map (join planes.toArray (planeCount type) samples)
  have small : ∀ difference ∈ steps, difference.toNat < 256 ^ planeCount type := by
    intro difference member
    obtain ⟨index, -, rfl⟩ := List.mem_map.mp member
    exact toNat_join_lt narrow
  have decoded : decodeSegment ⟨type, samples⟩ planes =
      ((sums 0 (steps.map (stepOf type))).map fun total =>
        total.toNat % 256 ^ type.byteSize).flatMap (littleEndian type.byteSize) := by
    simp only [decodeSegment, List.flatMap_map, littleEndian_mod, steps, List.map_map]
    rfl
  have counted : ((sums 0 (steps.map (stepOf type))).map fun total =>
      total.toNat % 256 ^ type.byteSize).length = samples := by simp [steps]
  have word : ∀ bits ∈ (sums 0 (steps.map (stepOf type))).map fun total =>
      total.toNat % 256 ^ type.byteSize, bits < 256 ^ type.byteSize := by
    intro bits member
    obtain ⟨total, -, rfl⟩ := List.mem_map.mp member
    exact Nat.mod_lt _ (Nat.pow_pos (by decide))
  have stored := groups_flatMap word
  rw [counted, ← decoded] at stored
  have pixels : (groups type.byteSize samples (decodeSegment ⟨type, samples⟩ planes)).map
      (pixelOf type) = (sums 0 (steps.map (stepOf type))).map (pixelOfSum type) := by
    rw [stored, List.map_map]
    rfl
  have recovered := map_kept_differences start small
  rw [zero] at recovered
  simp only [encodeSegment, pixels]
  rw [← split_map_kept narrow, differences, recovered]
  exact split_map_join narrow (by rw [filled, Nat.mul_comm])

/-- A decoded segment has the bytes of its samples. -/
theorem length_decodeSegment (segment : Segment) (planes : Bytes) :
    (decodeSegment segment planes).length = segment.samples * segment.type.byteSize := by
  simp [decodeSegment, List.length_flatMap]

end Segments

section Floats

variable {width count index : Nat} {bytes : Bytes}

/-- A number is read from the group of bytes at its index. -/
theorem getElem?_groups (inside : index < count) :
    (groups width count bytes)[index]? =
      some (ofLittleEndian ((bytes.drop (index * width)).take width)) := by
  induction count generalizing index bytes with
  | zero => exact absurd inside (Nat.not_lt_zero index)
  | succ count inductionHypothesis =>
    cases index with
    | zero => simp [groups]
    | succ index =>
      rw [groups, List.getElem?_cons_succ, inductionHypothesis (Nat.lt_of_succ_lt_succ inside),
        List.drop_drop, Nat.succ_mul, Nat.add_comm]

/-- All numbers of groups are told by their indices. -/
theorem forall_mem_groups_iff {property : Nat → Prop} :
    (∀ bits ∈ groups width count bytes, property bits) ↔
      ∀ index < count, property (ofLittleEndian ((bytes.drop (index * width)).take width)) := by
  constructor
  · intro all index inside
    exact all _ (List.mem_of_getElem? (getElem?_groups inside))
  · intro all bits member
    obtain ⟨index, inside, rfl⟩ := List.mem_iff_getElem.mp member
    rw [length_groups] at inside
    rw [(List.getElem?_eq_some_iff.mp (getElem?_groups inside)).2]
    exact all index inside

/-- The lowest digit of a group is its first byte. -/
theorem ofLittleEndian_take_mod {place : Nat} (inside : place < bytes.length) :
    ofLittleEndian ((bytes.drop place).take (width + 1)) % 256 = 0 ↔ bytes[place]? = some 0 := by
  have digit := bytes[place].toNat_lt
  rw [List.drop_eq_getElem_cons inside, List.take_succ_cons, ofLittleEndian,
    List.getElem?_eq_getElem inside, Option.some_inj, ← UInt8.toNat_inj, UInt8.toNat_zero]
  omega

/-- Rounding leaves exactly those floats alone that end in a zero byte. -/
theorem roundBits_float_eq_self_iff {bits : Nat} (word : bits < 2 ^ 32) :
    roundBits .float bits = bits ↔ bits % 256 = 0 := by
  have same : (UInt32.ofNat bits).toNat = bits := UInt32.toNat_ofNat_of_lt' word
  rw [roundBits, Rounding.toNat_from24]
  constructor
  · intro unchanged
    omega
  · intro cut
    rw [toNat_to24_of_mod (by rwa [same]), same]
    omega

/-- Rounding leaves a segment alone exactly if it leaves all of its samples alone. -/
theorem roundSegment_eq_self_iff_roundBits {segment : Segment}
    (sized : bytes.length = segment.samples * segment.type.byteSize) :
    roundSegment segment bytes = bytes ↔
      ∀ bits ∈ groups segment.type.byteSize segment.samples bytes,
        roundBits segment.type bits = bits := by
  constructor
  · intro same
    have small : ∀ bits ∈ (groups segment.type.byteSize segment.samples bytes).map
        (roundBits segment.type), bits < 256 ^ segment.type.byteSize := by
      intro bits member
      obtain ⟨source, inside, rfl⟩ := List.mem_map.mp member
      exact roundBits_lt (lt_of_mem_groups inside)
    have read := groups_flatMap small
    rw [List.length_map, length_groups, List.flatMap_map, ← roundSegment, same] at read
    exact List.map_inj_left.mp (read.symm.trans (List.map_id _).symm)
  · intro unchanged
    calc roundSegment segment bytes
        = (groups segment.type.byteSize segment.samples bytes).flatMap
            (littleEndian segment.type.byteSize) :=
          List.flatMap_congr fun bits member => by rw [unchanged bits member]
      _ = bytes := flatMap_groups sized

/-- Rounding leaves a segment alone exactly if its floats end in a zero byte. -/
theorem roundSegment_eq_self_iff {segment : Segment}
    (sized : bytes.length = segment.samples * segment.type.byteSize) :
    roundSegment segment bytes = bytes ↔
      (segment.type = .float → ∀ index < segment.samples, bytes[4 * index]? = some 0) := by
  by_cases float : segment.type = .float
  · have width : segment.type.byteSize = 4 := by rw [float]; rfl
    rw [roundSegment_eq_self_iff_roundBits sized, forall_mem_groups_iff, forall_prop_of_true float]
    rw [width] at sized ⊢
    rw [float]
    refine forall₂_congr fun index inside => ?_
    have few : ((bytes.drop (index * 4)).take 4).length ≤ 4 := List.length_take_le ..
    have word : ofLittleEndian ((bytes.drop (index * 4)).take 4) < 2 ^ 32 :=
      Nat.lt_of_lt_of_le (ofLittleEndian_lt _) (Nat.pow_le_pow_right (by decide) few)
    rw [roundBits_float_eq_self_iff word, Nat.mul_comm 4, ofLittleEndian_take_mod (by omega)]
  · exact iff_of_true (roundSegment_eq_self float sized) fun isFloat => absurd isFloat float

end Floats

section Blocks

variable {segments : List Segment} {planes bytes raw : Bytes}

/-- The least significant byte of every float of a block is zero. Samples are stored with this
byte first. -/
def FloatsCut : List Segment → Bytes → Prop
  | [], _ => True
  | segment :: others, bytes =>
    (segment.type = .float → ∀ index < segment.samples, bytes[4 * index]? = some 0) ∧
      FloatsCut others (bytes.drop (segment.samples * segment.type.byteSize))

/-- Rounding leaves a block alone exactly if its floats end in a zero byte. -/
theorem rounded_eq_self_iff (sized : bytes.length = rawSize segments) :
    rounded segments bytes = bytes ↔ FloatsCut segments bytes := by
  induction segments generalizing bytes with
  | nil =>
    rw [List.eq_nil_of_length_eq_zero sized]
    exact iff_of_true rfl trivial
  | cons segment others inductionHypothesis =>
    rw [rawSize] at sized
    have taken : (bytes.take (segment.samples * segment.type.byteSize)).length =
        segment.samples * segment.type.byteSize := by
      rw [List.length_take]
      omega
    have left : (bytes.drop (segment.samples * segment.type.byteSize)).length = rawSize others := by
      rw [List.length_drop]
      omega
    have front : (segment.type = .float → ∀ index < segment.samples,
        (bytes.take (segment.samples * segment.type.byteSize))[4 * index]? = some 0) ↔
        (segment.type = .float → ∀ index < segment.samples, bytes[4 * index]? = some 0) := by
      refine forall_congr' fun float => forall₂_congr fun index inside => ?_
      have width : segment.type.byteSize = 4 := by rw [float]; rfl
      rw [List.getElem?_take_of_lt (by rw [width]; omega)]
    rw [FloatsCut, ← front, ← roundSegment_eq_self_iff taken, ← inductionHypothesis left, rounded]
    constructor
    · intro same
      have whole := same.trans
        (List.take_append_drop (segment.samples * segment.type.byteSize) bytes).symm
      exact List.append_inj whole ((length_roundSegment segment _).trans taken.symm)
    · rintro ⟨same, behind⟩
      rw [same, behind, List.take_append_drop]

/-- Planes of the right number are decoded, and the block has these planes. The induction is
on the segments, whose planes follow one another as their samples do. -/
theorem exists_decode (filled : planes.length = planeSize segments) :
    ∃ raw, decode segments planes = .ok raw ∧ raw.length = rawSize segments ∧
      encode segments raw = .ok planes := by
  induction segments generalizing planes with
  | nil =>
    have none : planes = [] := List.eq_nil_of_length_eq_zero filled
    exact ⟨[], by rw [none, decode], rfl, by rw [none, encode]⟩
  | cons segment others inductionHypothesis =>
    rw [planeSize] at filled
    have taken : (planes.take (segment.samples * planeCount segment.type)).length =
        segment.samples * planeCount segment.type := by
      rw [List.length_take]
      omega
    have left : (planes.drop (segment.samples * planeCount segment.type)).length =
        planeSize others := by
      rw [List.length_drop]
      omega
    obtain ⟨raw, decoded, sized, encoded⟩ := inductionHypothesis left
    have length := length_decodeSegment segment
      (planes.take (segment.samples * planeCount segment.type))
    refine ⟨decodeSegment segment (planes.take (segment.samples * planeCount segment.type)) ++ raw,
      ?_, ?_, ?_⟩
    · simp only [decode]
      rw [if_neg (by omega), decoded]
      rfl
    · rw [List.length_append, length, sized, rawSize]
    · have enough := Nat.le_of_eq length.symm
      simp only [encode]
      rw [Scalar.takeBytes_of_le (by rw [List.length_append]; omega), Outcome.ok_bind]
      simp only [List.take_left' length, List.drop_left' length, encoded, Outcome.ok_bind,
        encodeSegment_decodeSegment taken, List.take_append_drop]
      rfl

/-- Only planes of the right number are decoded. -/
theorem length_of_decode (decoded : decode segments planes = .ok raw) :
    planes.length = planeSize segments := by
  induction segments generalizing planes raw with
  | nil =>
    cases planes with
    | nil => rfl
    | cons => cases decoded
  | cons segment others inductionHypothesis =>
    obtain ⟨enough, decoded⟩ := Outcome.guard_eq_ok_iff.mp decoded
    obtain ⟨samples, later, -⟩ := Outcome.bind_eq_ok_iff.mp decoded
    have behind := inductionHypothesis later
    rw [List.length_drop] at behind
    rw [List.length_take] at enough
    rw [planeSize]
    omega

/-- The blocks that planes are decoded to are those whose floats end in a zero byte. -/
theorem exists_decode_eq_iff :
    (∃ planes, decode segments planes = .ok raw) ↔
      raw.length = rawSize segments ∧ FloatsCut segments raw := by
  constructor
  · rintro ⟨planes, decoded⟩
    obtain ⟨same, again, sized, encoded⟩ := exists_decode (length_of_decode decoded)
    cases decoded.symm.trans again
    obtain ⟨others, encodedAgain, -, rounds⟩ := exists_encode sized
    cases encoded.symm.trans encodedAgain
    have same : raw = rounded segments raw := Except.ok.inj (decoded.symm.trans rounds)
    exact ⟨sized, (rounded_eq_self_iff sized).mp same.symm⟩
  · rintro ⟨sized, cut⟩
    obtain ⟨planes, -, -, decoded⟩ := exists_encode sized
    rw [(rounded_eq_self_iff sized).mpr cut] at decoded
    exact ⟨planes, decoded⟩

end Blocks

end PixelBlocks.Planes

import PixelBlocks.Transform.Planes
import PixelBlocks.Proofs.Rows
import PixelBlocks.Proofs.Scalar
import PixelBlocks.Proofs.Transform.Rounding

/-!
# Planes bring back all but rounded floats

Numbers that were split into byte planes are joined up to the bytes that have a
plane. Running sums of differences then agree with the pixels in all bytes that
are stored: modulo the width of a half, exactly for integers, and shifted for
floats. So a block that went through its planes has the same halves and integers
and rounded floats, and going through them once more changes nothing.
-/

namespace PixelBlocks.Planes

section Groups

/-- As many numbers are read as were asked for. -/
@[simp] theorem length_groups (width count : Nat) (bytes : Bytes) :
    (groups width count bytes).length = count := by
  induction count generalizing bytes with
  | zero => rfl
  | succ count inductionHypothesis => simp [groups, inductionHypothesis]

/-- The numbers do not exceed their width. -/
theorem lt_of_mem_groups {width count bits : Nat} {bytes : Bytes}
    (member : bits ∈ groups width count bytes) : bits < 256 ^ width := by
  induction count generalizing bytes with
  | zero => simp [groups] at member
  | succ count inductionHypothesis =>
    rcases List.mem_cons.mp member with rfl | later
    · have few : (bytes.take width).length ≤ width := List.length_take_le width bytes
      exact Nat.lt_of_lt_of_le (ofLittleEndian_lt _) (Nat.pow_le_pow_right (by decide) few)
    · exact inductionHypothesis later

/-- Numbers are read back as they were written. -/
theorem groups_flatMap {width : Nat} {numbers : List Nat}
    (small : ∀ bits ∈ numbers, bits < 256 ^ width) :
    groups width numbers.length (numbers.flatMap (littleEndian width)) = numbers := by
  induction numbers with
  | nil => rfl
  | cons first rest inductionHypothesis =>
    have spelled : ofLittleEndian (littleEndian width first) = first :=
      (ofLittleEndian_littleEndian width first).trans
        (Nat.mod_eq_of_lt (small first List.mem_cons_self))
    have others := inductionHypothesis fun bits member => small bits (List.mem_cons_of_mem _ member)
    rw [List.flatMap_cons, List.length_cons, groups, List.take_left' (length_littleEndian _ _),
      List.drop_left' (length_littleEndian _ _), spelled, others]

/-- Numbers are written as the bytes they were read from. -/
theorem flatMap_groups {width count : Nat} {bytes : Bytes} (sized : bytes.length = count * width) :
    (groups width count bytes).flatMap (littleEndian width) = bytes := by
  induction count generalizing bytes with
  | zero =>
    have none : bytes = [] := List.eq_nil_of_length_eq_zero (by rw [sized, Nat.zero_mul])
    rw [none]
    rfl
  | succ count inductionHypothesis =>
    rw [Nat.succ_mul] at sized
    have full : (bytes.take width).length = width := by
      rw [List.length_take]
      omega
    have left : (bytes.drop width).length = count * width := by
      rw [List.length_drop]
      omega
    have others := inductionHypothesis left
    have front := littleEndian_ofLittleEndian (bytes.take width)
    rw [full] at front
    rw [groups, List.flatMap_cons, front, others, List.take_append_drop]

end Groups

section Joining

/-- The bytes of a number that its planes keep. -/
def kept (count : Nat) (number : UInt32) : UInt32 :=
  UInt32.ofNat (number.toNat % 256 ^ count)

/-- A plane has one byte of every number. -/
@[simp] theorem length_planeOf (count : Nat) (numbers : List UInt32) (place : Nat) :
    (planeOf count place numbers).length = numbers.length := by
  simp [planeOf]

/-- All planes together have as many bytes as the numbers have planes. -/
@[simp] theorem length_split (count : Nat) (numbers : List UInt32) :
    (split count numbers).length = count * numbers.length :=
  Rows.length_flatMap (length_planeOf count numbers) count

/-- The byte of a number in a plane is its digit at that place to the base 256. -/
theorem toNat_planeByte (number : UInt32) {count place : Nat} (narrow : count ≤ 4) :
    (number >>> UInt32.ofNat (8 * (count - 1 - place))).toUInt8.toNat =
      number.toNat / 256 ^ (count - 1 - place) % 256 := by
  have amount : (UInt32.ofNat (8 * (count - 1 - place))).toNat % 32 = 8 * (count - 1 - place) := by
    rw [UInt32.toNat_ofNat']
    omega
  rw [UInt32.toNat_toUInt8, UInt32.toNat_shiftRight, amount, Nat.shiftRight_eq_div_pow,
    Nat.pow_mul]

/-- Joining appends a digit to a number that has room for it. -/
theorem toNat_joinByte {number : UInt32} (room : number.toNat < 2 ^ 24) (byte : UInt8) :
    (number <<< 8 ||| byte.toUInt32).toNat = number.toNat * 256 + byte.toNat := by
  have digit : byte.toNat < 2 ^ 8 := byte.toNat_lt
  have amount : UInt32.toNat 8 % 32 = 8 := rfl
  have shifted : (number <<< 8).toNat = 2 ^ 8 * number.toNat := by
    rw [UInt32.toNat_shiftLeft, amount, Nat.shiftLeft_eq, Nat.mod_eq_of_lt (by omega),
      Nat.mul_comm]
  rw [UInt32.toNat_or, UInt8.toNat_toUInt32, shifted, ← Nat.two_pow_add_eq_or_of_lt digit,
    Nat.mul_comm]

/-- The table of split numbers has the digit of a number in its plane. -/
theorem toNat_getD_split {count place : Nat} (narrow : count ≤ 4) (inside : place < count)
    {numbers : List UInt32} {index : Nat} (within : index < numbers.length) :
    ((split count numbers).toArray.getD (place * numbers.length + index) 0).toNat =
      numbers[index].toNat / 256 ^ (count - 1 - place) % 256 := by
  have found := Rows.getElem?_flatMap (length_planeOf count numbers) inside within
  have entry : (split count numbers)[place * numbers.length + index]? =
      some (numbers[index] >>> UInt32.ofNat (8 * (count - 1 - place))).toUInt8 := by
    rw [split, found, planeOf, List.getElem?_map, List.getElem?_eq_getElem within]
    rfl
  rw [Array.getD_eq_getD_getElem?, List.getElem?_toArray, entry, Option.getD_some,
    toNat_planeByte _ narrow]

/-- Joining split numbers brings back their lowest bytes. The induction is on the
planes read so far, which give the digits of the highest places. -/
theorem join_split {count : Nat} (narrow : count ≤ 4) {numbers : List UInt32} {index : Nat}
    (within : index < numbers.length) :
    join (split count numbers).toArray count numbers.length index = kept count numbers[index] := by
  have prefixes : ∀ places ≤ count,
      ((List.range places).foldl (fun (number : UInt32) place => (number <<< 8) |||
        ((split count numbers).toArray.getD (place * numbers.length + index) 0).toUInt32) 0).toNat =
      numbers[index].toNat / 256 ^ (count - places) % 256 ^ places := by
    intro places
    induction places with
    | zero => simp [Nat.mod_one]
    | succ places inductionHypothesis =>
      intro inside
      have before := inductionHypothesis (by omega)
      have place : count - places = count - 1 - places + 1 := by omega
      have next : count - (places + 1) = count - 1 - places := by omega
      have room : numbers[index].toNat / 256 ^ (count - places) % 256 ^ places < 2 ^ 24 := by
        have short : 256 ^ places ≤ 256 ^ 3 := Nat.pow_le_pow_right (by decide) (by omega)
        exact Nat.lt_of_lt_of_le (Nat.mod_lt _ (Nat.pow_pos (by decide))) short
      rw [List.range_succ, List.foldl_append, List.foldl_cons, List.foldl_nil,
        toNat_joinByte (by rwa [before]), before, toNat_getD_split narrow inside within, place,
        Nat.pow_succ 256 (count - 1 - places), ← Nat.div_div_eq_div_mul, Nat.pow_succ',
        Nat.mod_mul, Nat.mul_comm, Nat.add_comm, next]
  have whole := prefixes count (Nat.le_refl count)
  have small : numbers[index].toNat % 256 ^ count < 2 ^ 32 :=
    Nat.lt_of_le_of_lt (Nat.mod_le _ _) numbers[index].toNat_lt
  apply UInt32.toNat_inj.mp
  rw [join, whole, Nat.sub_self, Nat.pow_zero, Nat.div_one, kept, UInt32.toNat_ofNat',
    Nat.mod_eq_of_lt small]

/-- All joined numbers of a split list. -/
theorem map_join_split {count : Nat} (narrow : count ≤ 4) (numbers : List UInt32) :
    (List.range numbers.length).map (join (split count numbers).toArray count numbers.length) =
      numbers.map (kept count) := by
  apply List.ext_getElem (by simp)
  intro index inside _
  have within : index < numbers.length := by simpa using inside
  simp only [List.getElem_map, List.getElem_range]
  exact join_split narrow within

end Joining

section Sums

/-- A running sum agrees with a pixel in all bytes that the sample type stores. -/
def Agrees (type : SampleType) (total pixel : UInt32) : Prop :=
  total.toNat % 256 ^ type.byteSize = (stepOf type pixel).toNat % 256 ^ type.byteSize

/-- Adding the kept bytes of the next difference leads to agreement with the next
pixel. Bytes without a plane are those that the sample type does not store, or that
are shifted out. -/
theorem Agrees.step {type : SampleType} {total previous : UInt32}
    (agrees : Agrees type total previous) (pixel : UInt32) :
    Agrees type (total + stepOf type (kept (planeCount type) (pixel - previous))) pixel := by
  have totalSmall := total.toNat_lt
  have previousSmall := previous.toNat_lt
  have pixelSmall := pixel.toNat_lt
  cases type with
  | uint =>
    simp only [Agrees, SampleType.byteSize, stepOf, planeCount, kept, UInt32.toNat_add,
      UInt32.toNat_sub, UInt32.toNat_ofNat'] at *
    omega
  | half =>
    simp only [Agrees, SampleType.byteSize, stepOf, planeCount, kept, UInt32.toNat_add,
      UInt32.toNat_sub, UInt32.toNat_ofNat'] at *
    omega
  | float =>
    simp only [Agrees, SampleType.byteSize, stepOf, planeCount, kept, UInt32.toNat_add,
      UInt32.toNat_sub, UInt32.toNat_ofNat', Rounding.toNat_from24] at *
    omega

/-- What is stored of a number depends on its lowest bytes only. -/
theorem littleEndian_mod (width value : Nat) :
    littleEndian width (value % 256 ^ width) = littleEndian width value := by
  have back := littleEndian_ofLittleEndian (littleEndian width value)
  rw [length_littleEndian, ofLittleEndian_littleEndian] at back
  exact back

/-- Running sums of differences store the same bytes as the pixels. The induction
is on the pixels, and carries the agreement with the pixel before. -/
theorem flatMap_sums {type : SampleType} {total previous : UInt32}
    (agrees : Agrees type total previous) (pixels : List UInt32) :
    ((sums total ((List.zipWith (· - ·) pixels (previous :: pixels)).map
        fun difference => stepOf type (kept (planeCount type) difference))).flatMap
      fun bits => littleEndian type.byteSize bits.toNat) =
    pixels.flatMap fun pixel => littleEndian type.byteSize (stepOf type pixel).toNat := by
  induction pixels generalizing total previous with
  | nil => rfl
  | cons pixel rest inductionHypothesis =>
    have next := agrees.step pixel
    have stored : littleEndian type.byteSize
        (total + stepOf type (kept (planeCount type) (pixel - previous))).toNat =
          littleEndian type.byteSize (stepOf type pixel).toNat := by
      rw [← littleEndian_mod, next, littleEndian_mod]
    rw [List.zipWith_cons_cons, List.map_cons, sums, List.flatMap_cons, List.flatMap_cons, stored,
      inductionHypothesis next]

end Sums

section Segments

/-- The bits of a sample after it went through its planes: floats are rounded. -/
def roundBits : SampleType → Nat → Nat
  | .float, bits => (Rounding.from24 (Rounding.to24 (UInt32.ofNat bits))).toNat
  | .half, bits | .uint, bits => bits

/-- The bytes of a segment after they went through their planes. -/
def roundSegment (segment : Segment) (bytes : Bytes) : Bytes :=
  (groups segment.type.byteSize segment.samples bytes).flatMap fun bits =>
    littleEndian segment.type.byteSize (roundBits segment.type bits)

/-- The differences of pixels are as many as the pixels. -/
@[simp] theorem length_differences (pixels : List UInt32) :
    (differences pixels).length = pixels.length := by
  simp [differences]

/-- The integer that stands for a sample stands for its rounded bits. -/
theorem toNat_stepOf_pixelOf {type : SampleType} {bits : Nat} (small : bits < 256 ^ type.byteSize) :
    (stepOf type (pixelOf type bits)).toNat = roundBits type bits := by
  cases type with
  | float => rfl
  | uint => exact UInt32.toNat_ofNat_of_lt' small
  | half =>
    have word : bits < 2 ^ 32 := Nat.lt_trans small (by decide)
    exact UInt32.toNat_ofNat_of_lt' word

/-- Rounding changes no sample but floats, so it keeps all within their width. -/
theorem roundBits_lt {type : SampleType} {bits : Nat} (small : bits < 256 ^ type.byteSize) :
    roundBits type bits < 256 ^ type.byteSize := by
  cases type with
  | float => exact UInt32.toNat_lt _
  | uint => exact small
  | half => exact small

/-- The integer that stands for a rounded sample is the one before rounding. -/
theorem pixelOf_roundBits (type : SampleType) (bits : Nat) :
    pixelOf type (roundBits type bits) = pixelOf type bits := by
  cases type with
  | float =>
    simp only [pixelOf, roundBits, UInt32.ofNat_toNat]
    exact Rounding.to24_from24_to24 (UInt32.ofNat bits)
  | uint => rfl
  | half => rfl

/-- A segment has as many planes as its type asks for. -/
theorem length_encodeSegment (segment : Segment) (bytes : Bytes) :
    (encodeSegment segment bytes).length = segment.samples * planeCount segment.type := by
  simp [encodeSegment, Nat.mul_comm]

/-- Rounding keeps the number of bytes. -/
theorem length_roundSegment (segment : Segment) (bytes : Bytes) :
    (roundSegment segment bytes).length = segment.samples * segment.type.byteSize := by
  simp [roundSegment, List.length_flatMap]

/-- The planes of a segment bring back its rounded bytes. -/
theorem decodeSegment_encodeSegment (segment : Segment) (bytes : Bytes) :
    decodeSegment segment (encodeSegment segment bytes) = roundSegment segment bytes := by
  obtain ⟨type, samples⟩ := segment
  have narrow : planeCount type ≤ 4 := by cases type <;> decide
  have start : Agrees type 0 0 := by cases type <;> rfl
  have counted : (differences ((groups type.byteSize samples bytes).map (pixelOf type))).length =
      samples := by simp
  have joined := map_join_split narrow
    (differences ((groups type.byteSize samples bytes).map (pixelOf type)))
  have summed := flatMap_sums start ((groups type.byteSize samples bytes).map (pixelOf type))
  rw [counted] at joined
  -- the differences lose the bytes without a plane before they become steps
  have steps := congrArg (List.map (stepOf type)) joined
  rw [List.map_map, List.map_map] at steps
  have restored : decodeSegment ⟨type, samples⟩ (encodeSegment ⟨type, samples⟩ bytes) =
      ((groups type.byteSize samples bytes).map (pixelOf type)).flatMap fun pixel =>
        littleEndian type.byteSize (stepOf type pixel).toNat := by
    rw [← summed]
    exact congrArg (fun steps => (sums 0 steps).flatMap fun bits =>
      littleEndian type.byteSize bits.toNat) steps
  rw [restored, roundSegment, List.flatMap_map]
  apply List.flatMap_congr
  intro bits member
  rw [toNat_stepOf_pixelOf (lt_of_mem_groups member)]

/-- Rounded bytes have the same planes. -/
theorem encodeSegment_roundSegment (segment : Segment) (bytes : Bytes) :
    encodeSegment segment (roundSegment segment bytes) = encodeSegment segment bytes := by
  obtain ⟨type, samples⟩ := segment
  have small : ∀ bits ∈ (groups type.byteSize samples bytes).map (roundBits type),
      bits < 256 ^ type.byteSize := by
    intro bits member
    obtain ⟨source, inside, rfl⟩ := List.mem_map.mp member
    exact roundBits_lt (lt_of_mem_groups inside)
  have again := groups_flatMap small
  rw [List.length_map, length_groups, List.flatMap_map] at again
  have pixels : pixelOf type ∘ roundBits type = pixelOf type := by
    funext bits
    exact pixelOf_roundBits type bits
  simp only [encodeSegment, roundSegment]
  rw [again, List.map_map, pixels]

/-- Without floats no byte changes. -/
theorem roundSegment_eq_self {segment : Segment} (exact : segment.type ≠ .float) {bytes : Bytes}
    (sized : bytes.length = segment.samples * segment.type.byteSize) :
    roundSegment segment bytes = bytes := by
  have unchanged : roundBits segment.type = id := by
    funext bits
    cases type : segment.type with
    | float => exact absurd type exact
    | uint => rfl
    | half => rfl
  rw [roundSegment, unchanged]
  exact flatMap_groups sized

end Segments

section Blocks

/-- How many bytes the samples of segments take. -/
def rawSize : List Segment → Nat
  | [] => 0
  | segment :: others => segment.samples * segment.type.byteSize + rawSize others

/-- How many bytes the planes of segments take. -/
def planeSize : List Segment → Nat
  | [] => 0
  | segment :: others => segment.samples * planeCount segment.type + planeSize others

/-- The samples of segments after they went through their planes. -/
def rounded : List Segment → Bytes → Bytes
  | [], _ => []
  | segment :: others, bytes =>
    let length := segment.samples * segment.type.byteSize
    roundSegment segment (bytes.take length) ++ rounded others (bytes.drop length)

/-- The segments of consecutive rows add up. -/
@[simp] theorem rawSize_append (front back : List Segment) :
    rawSize (front ++ back) = rawSize front + rawSize back := by
  induction front with
  | nil => simp [rawSize]
  | cons segment others inductionHypothesis => simp [rawSize, inductionHypothesis, Nat.add_assoc]

/-- No sample has more planes than bytes. -/
theorem planeSize_le (segments : List Segment) : planeSize segments ≤ rawSize segments := by
  induction segments with
  | nil => exact Nat.le_refl 0
  | cons segment others inductionHypothesis =>
    have narrow : planeCount segment.type ≤ segment.type.byteSize := by
      cases segment.type <;> decide
    exact Nat.add_le_add (Nat.mul_le_mul_left segment.samples narrow) inductionHypothesis

/-- Rounding keeps the number of bytes. -/
@[simp] theorem length_rounded (segments : List Segment) (bytes : Bytes) :
    (rounded segments bytes).length = rawSize segments := by
  induction segments generalizing bytes with
  | nil => rfl
  | cons segment others inductionHypothesis =>
    simp [rounded, rawSize, length_roundSegment, inductionHypothesis]

/-- Samples of the right number have planes, and these bring back the rounded samples.
The induction is on the segments, whose planes follow one another as their samples do. -/
theorem exists_encode {segments : List Segment} {bytes : Bytes}
    (sized : bytes.length = rawSize segments) :
    ∃ planes, encode segments bytes = .ok planes ∧ planes.length = planeSize segments ∧
      decode segments planes = .ok (rounded segments bytes) := by
  induction segments generalizing bytes with
  | nil =>
    have none : bytes = [] := List.eq_nil_of_length_eq_zero sized
    exact ⟨[], by rw [none, encode], rfl, rfl⟩
  | cons segment others inductionHypothesis =>
    rw [rawSize] at sized
    have enough : segment.samples * segment.type.byteSize ≤ bytes.length := by omega
    have left : (bytes.drop (segment.samples * segment.type.byteSize)).length = rawSize others := by
      rw [List.length_drop]
      omega
    obtain ⟨planes, encoded, counted, decoded⟩ := inductionHypothesis left
    let front := bytes.take (segment.samples * segment.type.byteSize)
    have length := length_encodeSegment segment front
    refine ⟨encodeSegment segment front ++ planes, ?_, ?_, ?_⟩
    · simp [encode, Scalar.takeBytes_of_le enough, encoded, front]
    · rw [List.length_append, length, counted, planeSize]
    · simp only [decode]
      rw [List.take_left' length, List.drop_left' length, if_neg (by omega), decoded,
        decodeSegment_encodeSegment]
      rfl

/-- Rounded samples have the same planes. -/
theorem encode_rounded {segments : List Segment} {bytes : Bytes}
    (sized : bytes.length = rawSize segments) :
    encode segments (rounded segments bytes) = encode segments bytes := by
  induction segments generalizing bytes with
  | nil => rw [List.eq_nil_of_length_eq_zero sized, rounded]
  | cons segment others inductionHypothesis =>
    rw [rawSize] at sized
    have enough : segment.samples * segment.type.byteSize ≤ bytes.length := by omega
    have left : (bytes.drop (segment.samples * segment.type.byteSize)).length = rawSize others := by
      rw [List.length_drop]
      omega
    have later := inductionHypothesis left
    have length := length_roundSegment segment
      (bytes.take (segment.samples * segment.type.byteSize))
    have within : segment.samples * segment.type.byteSize ≤
        (rounded (segment :: others) bytes).length := by
      rw [length_rounded, rawSize]
      omega
    rw [encode, encode, Scalar.takeBytes_of_le enough, Scalar.takeBytes_of_le within, rounded,
      List.take_left' length, List.drop_left' length]
    simp only [Outcome.ok_bind, later, encodeSegment_roundSegment]

/-- Rounding once more changes nothing, because the planes stay the same. -/
theorem rounded_rounded {segments : List Segment} {bytes : Bytes}
    (sized : bytes.length = rawSize segments) :
    rounded segments (rounded segments bytes) = rounded segments bytes := by
  obtain ⟨planes, encoded, -, decoded⟩ := exists_encode sized
  obtain ⟨again, encodedAgain, -, decodedAgain⟩ := exists_encode (length_rounded segments bytes)
  rw [encode_rounded sized, encoded] at encodedAgain
  cases encodedAgain
  rw [decoded] at decodedAgain
  exact (Except.ok.inj decodedAgain).symm

/-- Without floats no byte changes. -/
theorem rounded_eq_self {segments : List Segment}
    (exact : ∀ segment ∈ segments, segment.type ≠ .float) {bytes : Bytes}
    (sized : bytes.length = rawSize segments) : rounded segments bytes = bytes := by
  induction segments generalizing bytes with
  | nil => rw [List.eq_nil_of_length_eq_zero sized, rounded]
  | cons segment others inductionHypothesis =>
    rw [rawSize] at sized
    have taken : (bytes.take (segment.samples * segment.type.byteSize)).length =
        segment.samples * segment.type.byteSize := by
      rw [List.length_take]
      omega
    have left : (bytes.drop (segment.samples * segment.type.byteSize)).length = rawSize others := by
      rw [List.length_drop]
      omega
    have front := roundSegment_eq_self (exact segment List.mem_cons_self) taken
    have back := inductionHypothesis
      (fun other member => exact other (List.mem_cons_of_mem _ member)) left
    rw [rounded, front, back, List.take_append_drop]

end Blocks

end PixelBlocks.Planes

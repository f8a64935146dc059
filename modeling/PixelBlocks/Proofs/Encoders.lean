import Mathlib.Data.List.Induction
import PixelBlocks.Proofs.Checked
import PixelBlocks.Proofs.Transform.Packets
import PixelBlocks.Proofs.Transform.Preparation

/-!
# The run-length encoder takes no step without a result

The encoder works on a table and two places in it, the start of the next packet and the
place up to which the packet is known. Differences are stored in the table itself, from the
back. Places are compared with the size of the table before they are read, and sums of
places go one behind its end at most. The count byte of literal bytes is the lowest byte of a
difference of 32-bit words, which wraps.
-/

namespace PixelBlocks.Checked

section Tables

/-- How far a place is behind another one, if it is. -/
def distance (start stop : Nat) : Checked Nat :=
  if start ≤ stop then .ok (stop - start) else .error .outOfRange

/-- The bytes of a table from a place to another one, if it has them. -/
def slice (table : Array UInt8) (start stop : Nat) : Checked Bytes :=
  if start ≤ stop ∧ stop ≤ table.size then .ok (table.extract start stop).toList
  else .error .outOfRange

/-- The byte at a place within a table is read. -/
theorem fetch_eq_getElem {table : Array UInt8} {place : Nat} (inside : place < table.size) :
    fetch table place = .ok table[place] := by
  simp [fetch, inside]

/-- The byte behind others is read. -/
theorem fetch_append (before after : Bytes) (byte : UInt8) :
    fetch (before ++ byte :: after).toArray before.length = .ok byte := by
  simp [fetch]

/-- The byte behind others is replaced. -/
theorem store_append (before after : Bytes) (old new : UInt8) :
    store (before ++ old :: after).toArray before.length new =
      .ok (before ++ new :: after).toArray := by
  simp [store]

/-- Places in order have a distance. -/
theorem distance_eq_ok {start stop : Nat} (ordered : start ≤ stop) :
    distance start stop = .ok (stop - start) :=
  if_pos ordered

/-- Only places in order have a distance. -/
theorem distance_eq_ok_iff {start stop length : Nat} :
    distance start stop = .ok length ↔ start ≤ stop ∧ stop - start = length := by
  unfold distance
  by_cases ordered : start ≤ stop <;> simp [ordered]

end Tables

section Preparation

/-- Puts the bytes at even places before the others, in steps that are checked: the copy of
the result over the bytes. -/
def separate (bytes : Bytes) : Checked Bytes :=
  overwrite bytes (Separation.separate bytes)

/-- Replaces the bytes of a table by their differences to the bytes before them, from the
given place down to the second byte. -/
def differencesDown : (place : Nat) → Array UInt8 → Checked (Array UInt8)
  | 0, table => .ok table
  | place + 1, table => do
    let sample ← fetch table (place + 1)
    let previous ← fetch table place
    let changed ← store table (place + 1) (Differences.difference sample previous)
    differencesDown place changed

/-- The first byte followed by the differences of neighbours, in steps that are checked. -/
def ofSamples (samples : Bytes) : Checked Bytes := do
  let table ← differencesDown (samples.length - 1) samples.toArray
  return table.toList

/-- The prepared form of a block, in steps that are checked. -/
def prepare (samples : Bytes) : Checked Bytes := do
  let separated ← separate samples
  ofSamples separated

/-- The difference of two neighbours at the end follows the differences of those before. -/
theorem ofSamples_append (before : Bytes) (previous last : UInt8) :
    Differences.ofSamples (before ++ [previous, last]) =
      Differences.ofSamples (before ++ [previous]) ++ [Differences.difference last previous] := by
  cases before with
  | nil => rfl
  | cons first before =>
    simp only [List.cons_append, Differences.ofSamples, List.cons.injEq, true_and]
    induction before generalizing first with
    | nil => rfl
    | cons second before inductionHypothesis => simp [inductionHypothesis]

/-- The bytes up to a place are replaced by their differences, and those behind them stay. The
induction takes the last of these bytes away, which is replaced first. -/
theorem differencesDown_eq_ok (before : Bytes) (byte : UInt8) (behind : Bytes) :
    differencesDown before.length (before ++ byte :: behind).toArray =
      .ok (Differences.ofSamples (before ++ [byte]) ++ behind).toArray := by
  induction before using List.reverseRecOn generalizing byte behind with
  | nil => rfl
  | append_singleton before previous inductionHypothesis =>
    have last := fetch_append (before ++ [previous]) behind byte
    have changed := store_append (before ++ [previous]) behind byte
      (Differences.difference byte previous)
    have earlier := fetch_append before (byte :: behind) previous
    have others := inductionHypothesis previous (Differences.difference byte previous :: behind)
    simp only [List.append_assoc, List.singleton_append, List.length_append,
      List.length_singleton] at last changed ⊢
    rw [differencesDown, last, Outcome.ok_bind, earlier, Outcome.ok_bind, changed, Outcome.ok_bind,
      others, ofSamples_append, List.append_assoc, List.singleton_append]

/-- Differences are taken within the table. -/
theorem ofSamples_eq_ok (samples : Bytes) :
    ofSamples samples = .ok (Differences.ofSamples samples) := by
  cases samples using List.reverseRecOn with
  | nil => rfl
  | append_singleton before last =>
    have replaced := differencesDown_eq_ok before last []
    rw [List.append_nil] at replaced
    rw [ofSamples, List.length_append, List.length_singleton, Nat.add_sub_cancel, replaced]
    rfl

/-- The separated bytes are written over as many others. -/
theorem separate_eq_ok (bytes : Bytes) : separate bytes = .ok (Separation.separate bytes) :=
  overwrite_eq_ok (Separation.length_separate bytes).symm

/-- A block is prepared within its bytes. -/
theorem prepare_eq_ok (samples : Bytes) : prepare samples = .ok (Preparation.prepare samples) := by
  rw [prepare, separate_eq_ok, Outcome.ok_bind, ofSamples_eq_ok]
  rfl

end Preparation

section Packets

open PixelBlocks.RunLength

/-- Whether the run at a start goes on at a place: the byte there is the first one again, and
not more than 128 bytes are repeated. -/
def runsOn (table : Array UInt8) (start place : Nat) : Checked Bool := do
  let value ← fetch table start
  let byte ← fetch table place
  if value = byte then do
    let length ← distance start place
    return length ≤ 127
  else return false

/-- Whether no equal byte follows the one at a place. -/
def changesAt (table : Array UInt8) (place : Nat) : Checked Bool := do
  let next ← placeWithin table (place + 1)
  if table.size ≤ next then return true
  else do
    let byte ← fetch table place
    let following ← fetch table next
    return byte != following

/-- Whether the byte at a place is not the first of three equal ones. -/
def plainAt (table : Array UInt8) (place : Nat) : Checked Bool := do
  let changes ← changesAt table place
  if changes then return true else changesAt table (place + 1)

/-- Whether the literal bytes at a start go on at a place: no three equal bytes stand there,
and not more than 127 bytes are literal. -/
def literalOn (table : Array UInt8) (start place : Nat) : Checked Bool := do
  let plain ← plainAt table place
  if plain then do
    let length ← distance start place
    return length < 127
  else return false

/-- The first place from a given one on at which the table ends or bytes do not go on. -/
def advance (table : Array UInt8) (goesOn : Nat → Checked Bool) (place : Nat) : Checked Nat :=
  if place < table.size then do
    let more ← goesOn place
    if more then do
      let _ ← placeWithin table (place + 1)
      advance table goesOn (place + 1)
    else return place
  else return place
termination_by table.size - place

/-- The lowest byte of the difference of two places, as signed 32-bit words. -/
def countByte (start stop : Nat) : UInt8 :=
  (Int32.ofNat start - Int32.ofNat stop).toUInt32.toUInt8

/-- Writes the packet at a start, which goes on to a place at least. The start of the next
packet comes with it, and the place to which that one goes on. -/
def scanPacket (table : Array UInt8) (start stop : Nat) : Checked (Bytes × Nat × Nat) := do
  let runStop ← advance table (runsOn table start) stop
  let length ← distance start runStop
  if 3 ≤ length then do
    let repeats ← distance 1 length
    let value ← fetch table start
    return ([repeats.toUInt8, value], runStop, runStop)
  else do
    let literalStop ← advance table (literalOn table start) runStop
    let values ← slice table start literalStop
    let next ← placeWithin table (literalStop + 1)
    return (countByte start literalStop :: values, literalStop, next)

section Progress

variable {table : Array UInt8} {goesOn : Nat → Checked Bool} {start stop place last : Nat}

/-- One step further if the bytes go on. -/
theorem advance_eq {more : Bool} (inside : place < table.size) (known : goesOn place = .ok more) :
    advance table goesOn place = if more then advance table goesOn (place + 1) else .ok place := by
  rw [advance, if_pos inside, known, Outcome.ok_bind, placeWithin_eq_ok (by omega)]
  rfl

/-- No step behind the table. -/
theorem advance_end (outside : table.size ≤ place) : advance table goesOn place = .ok place := by
  rw [advance, if_neg (Nat.not_lt.mpr outside)]
  rfl

/-- No step if the bytes do not go on. -/
theorem advance_stop (stops : place < table.size → goesOn place = .ok false) :
    advance table goesOn place = .ok place := by
  by_cases inside : place < table.size
  · exact advance_eq inside (stops inside)
  · exact advance_end (Nat.not_lt.mp inside)

/-- Advancing does not go back. -/
theorem le_of_advance (found : advance table goesOn place = .ok last) : place ≤ last := by
  fun_induction advance table goesOn place with
  | case1 place inside inductionHypothesis =>
    obtain ⟨more, -, found⟩ := Outcome.bind_eq_ok_iff.mp found
    cases more with
    | true =>
      obtain ⟨_, -, later⟩ := Outcome.bind_eq_ok_iff.mp found
      exact Nat.le_of_succ_le (inductionHypothesis later)
    | false =>
      cases found
      exact Nat.le_refl _
  | case2 =>
    cases found
    exact Nat.le_refl _

/-- Places within the table are compared. -/
theorem runsOn_eq_ok (here : start < table.size) (there : place < table.size)
    (ordered : start ≤ place) :
    runsOn table start place =
      .ok (decide (table[start] = table[place] ∧ place - start ≤ 127)) := by
  rw [runsOn, fetch_eq_getElem here, Outcome.ok_bind, fetch_eq_getElem there, Outcome.ok_bind,
    distance_eq_ok ordered]
  by_cases same : table[start] = table[place] <;> simp [same]

/-- A run only goes on behind its start. -/
theorem le_of_runsOn (goesOn : runsOn table start place = .ok true) : start ≤ place := by
  obtain ⟨value, -, goesOn⟩ := Outcome.bind_eq_ok_iff.mp goesOn
  obtain ⟨byte, -, goesOn⟩ := Outcome.bind_eq_ok_iff.mp goesOn
  by_cases same : value = byte
  · rw [if_pos same] at goesOn
    obtain ⟨length, counted, -⟩ := Outcome.bind_eq_ok_iff.mp goesOn
    exact (distance_eq_ok_iff.mp counted).1
  · rw [if_neg same] at goesOn
    cases goesOn

/-- A run that does not end before its start has a byte at least. -/
theorem lt_of_run (inside : start < table.size)
    (found : advance table (runsOn table start) stop = .ok last) (ordered : start ≤ last) :
    start < last := by
  by_cases behind : start < stop
  · exact Nat.lt_of_lt_of_le behind (le_of_advance found)
  · have known := found
    rw [advance, if_pos (by omega)] at known
    obtain ⟨more, checked, -⟩ := Outcome.bind_eq_ok_iff.mp known
    rw [advance_eq (by omega) checked] at found
    cases more with
    | true =>
      have further : stop + 1 ≤ last := le_of_advance found
      have same := le_of_runsOn checked
      omega
    | false =>
      -- the run would end at its first byte, which equals itself
      cases found
      obtain rfl : start = stop := by omega
      rw [runsOn_eq_ok inside inside (Nat.le_refl _)] at checked
      simp at checked

/-- Each packet takes a byte at least. -/
theorem lt_of_scanPacket (inside : start < table.size) {packet : Bytes} {next nextStop : Nat}
    (scanned : scanPacket table start stop = .ok (packet, next, nextStop)) : start < next := by
  obtain ⟨runStop, found, scanned⟩ := Outcome.bind_eq_ok_iff.mp scanned
  obtain ⟨length, counted, scanned⟩ := Outcome.bind_eq_ok_iff.mp scanned
  have some := lt_of_run inside found (distance_eq_ok_iff.mp counted).1
  by_cases long : 3 ≤ length
  · rw [if_pos long] at scanned
    obtain ⟨repeats, -, scanned⟩ := Outcome.bind_eq_ok_iff.mp scanned
    obtain ⟨value, -, scanned⟩ := Outcome.bind_eq_ok_iff.mp scanned
    cases scanned
    exact some
  · rw [if_neg long] at scanned
    obtain ⟨literalStop, foundLiteral, scanned⟩ := Outcome.bind_eq_ok_iff.mp scanned
    obtain ⟨values, -, scanned⟩ := Outcome.bind_eq_ok_iff.mp scanned
    obtain ⟨_, -, scanned⟩ := Outcome.bind_eq_ok_iff.mp scanned
    cases scanned
    exact Nat.lt_of_lt_of_le some (le_of_advance foundLiteral)

end Progress

/-- Writes packet after packet, in steps that are checked. It ends because each packet takes
a byte at least. -/
def scan (table : Array UInt8) (start stop : Nat) : Checked Bytes :=
  if start < table.size then
    match _scanned : scanPacket table start stop with
    | .error reason => .error reason
    | .ok (packet, next, nextStop) => do
      let others ← scan table next nextStop
      return packet ++ others
  else return []
termination_by table.size - start
decreasing_by
  have further := lt_of_scanPacket ‹_› _scanned
  omega

/-- The run-length form of a block, in steps that are checked. -/
def compress (samples : Bytes) : Checked Bytes := do
  let prepared ← prepare samples
  scan prepared.toArray 0 1

/-- One packet, and the packets from the next start on. -/
theorem scan_cons {table : Array UInt8} {start stop next nextStop : Nat} {packet : Bytes}
    (inside : start < table.size)
    (scanned : scanPacket table start stop = .ok (packet, next, nextStop)) :
    scan table start stop = (scan table next nextStop).map (packet ++ ·) := by
  rw [scan, if_pos inside, scanned]
  rfl

section Exactness

variable {bytes : Bytes} {start stop limit : Nat}

/-- Neighbours are compared, and the last byte differs from what is missing behind it. -/
theorem changesAt_eq_ok (inside : start < bytes.length) :
    changesAt bytes.toArray start = .ok (bytes[start]? != bytes[start + 1]?) := by
  have near : start + 1 ≤ bytes.toArray.size + 1 := Nat.succ_le_succ (Nat.le_of_lt inside)
  rw [changesAt, placeWithin_eq_ok near, Outcome.ok_bind, List.size_toArray,
    List.getElem?_eq_getElem inside]
  by_cases ends : bytes.length ≤ start + 1
  · rw [if_pos ends, List.getElem?_eq_none ends]
    rfl
  · have behind : start + 1 < bytes.length := Nat.lt_of_not_le ends
    rw [if_neg ends, fetch_eq_getElem inside, Outcome.ok_bind, fetch_eq_getElem behind,
      List.getElem?_eq_getElem behind]
    simp [bne]

/-- A run starts where two pairs of neighbours are equal. -/
theorem startsRun_drop (inside : start < bytes.length) :
    startsRun (bytes.drop start) =
      (bytes[start]? == bytes[start + 1]? && bytes[start + 1]? == bytes[start + 2]?) := by
  have places : ∀ index, bytes[start + index]? = (bytes.drop start)[index]? := by
    intro index
    exact List.getElem?_drop.symm
  have some : bytes.drop start ≠ [] := by
    rw [Ne, List.drop_eq_nil_iff]
    exact Nat.not_le_of_lt inside
  rw [← Nat.add_zero start, Nat.add_assoc, Nat.add_assoc, places, places, places]
  match bytes.drop start, some with
  | [_], _ => rfl
  | [_, _], _ => simp [startsRun]
  | _ :: _ :: _ :: _, _ => simp [startsRun]

/-- Three bytes are compared in two pairs. -/
theorem plainAt_eq_ok (inside : start < bytes.length) :
    plainAt bytes.toArray start = .ok (!startsRun (bytes.drop start)) := by
  rw [plainAt, changesAt_eq_ok inside, Outcome.ok_bind, startsRun_drop inside, bne]
  cases same : bytes[start]? == bytes[start + 1]? with
  | false => rfl
  | true =>
    have behind : start + 1 < bytes.length := by
      rw [beq_iff_eq, List.getElem?_eq_getElem inside] at same
      exact (List.getElem?_eq_some_iff.mp same.symm).1
    rw [changesAt_eq_ok behind]
    rfl

/-- Literal bytes go on within the table. -/
theorem literalOn_eq_ok (inside : stop < bytes.length) (ordered : start ≤ stop) :
    literalOn bytes.toArray start stop =
      .ok (!startsRun (bytes.drop stop) && decide (stop - start < 127)) := by
  rw [literalOn, plainAt_eq_ok inside, Outcome.ok_bind]
  cases startsRun (bytes.drop stop) with
  | true => rfl
  | false =>
    rw [distance_eq_ok ordered]
    rfl

/-- The loop over a run stops behind the bytes that repeat the first one. The induction is on
how many more bytes the packet can repeat. -/
theorem advance_runsOn (inside : start < bytes.length) (ordered : start ≤ stop)
    (room : stop - start + limit = 128) :
    advance bytes.toArray (runsOn bytes.toArray start) stop =
      .ok (stop + (splitRun bytes[start] limit (bytes.drop stop)).1) := by
  induction limit generalizing stop with
  | zero =>
    have none : (splitRun bytes[start] 0 (bytes.drop stop)).1 = 0 := by simp [splitRun]
    rw [none]
    apply advance_stop
    intro there
    rw [runsOn_eq_ok inside there ordered, decide_eq_false]
    omega
  | succ limit inductionHypothesis =>
    by_cases there : stop < bytes.length
    · rw [List.drop_eq_getElem_cons there, splitRun]
      by_cases same : bytes[stop] = bytes[start]
      · have more : runsOn bytes.toArray start stop = .ok true := by
          rw [runsOn_eq_ok inside there ordered, decide_eq_true]
          exact ⟨same.symm, by omega⟩
        rw [advance_eq there more, if_pos rfl, inductionHypothesis (by omega) (by omega),
          if_pos same, Nat.add_right_comm, Nat.add_assoc]
      · rw [if_neg same]
        apply advance_stop
        intro _
        rw [runsOn_eq_ok inside there ordered, decide_eq_false]
        intro again
        exact same again.1.symm
    · rw [List.drop_of_length_le (Nat.not_lt.mp there)]
      exact advance_end (Nat.not_lt.mp there)

/-- The loop over literal bytes stops where they are split. The induction is on how many more
bytes the packet can hold. -/
theorem advance_literalOn (ordered : start ≤ stop) (room : stop - start + limit = 127) :
    advance bytes.toArray (literalOn bytes.toArray start) stop =
      .ok (stop + (splitLiteral limit (bytes.drop stop)).1.length) := by
  induction limit generalizing stop with
  | zero =>
    have none : (splitLiteral 0 (bytes.drop stop)).1 = [] := by simp [splitLiteral]
    rw [none]
    apply advance_stop
    intro there
    rw [literalOn_eq_ok there ordered, decide_eq_false (by omega), Bool.and_false]
  | succ limit inductionHypothesis =>
    by_cases there : stop < bytes.length
    · have goesOn : literalOn bytes.toArray start stop = .ok (!startsRun (bytes.drop stop)) := by
        rw [literalOn_eq_ok there ordered, decide_eq_true (by omega), Bool.and_true]
      rw [advance_eq there goesOn, List.drop_eq_getElem_cons there, splitLiteral]
      by_cases run : startsRun (bytes[stop] :: bytes.drop (stop + 1))
      · rw [if_pos run, run]
        rfl
      · rw [inductionHypothesis (by omega) (by omega), if_neg run, Bool.eq_false_iff.mpr run,
          List.length_cons, Nat.add_right_comm, Nat.add_assoc]
        rfl
    · rw [List.drop_of_length_le (Nat.not_lt.mp there)]
      exact advance_end (Nat.not_lt.mp there)

/-- The count byte of literal bytes is their negated number. -/
theorem countByte_eq (ordered : start ≤ stop) :
    countByte start stop = 0 - (stop - start).toUInt8 := by
  apply UInt8.toNat_inj.mp
  have word : (Int32.ofNat start - Int32.ofNat stop).toUInt32.toNat =
      (2 ^ 32 - stop % 2 ^ 32 + start % 2 ^ 32) % 2 ^ 32 := by
    rw [← UInt32.toNat_toBitVec, Int32.toBitVec_toUInt32, Int32.toBitVec_sub, BitVec.toNat_sub]
    rfl
  rw [countByte, UInt32.toNat_toUInt8, word, UInt8.toNat_sub]
  simp only [Nat.toUInt8, UInt8.toNat_ofNat', UInt8.toNat_zero]
  omega

section Front

variable {first : UInt8} {rest : Bytes}

/-- The first byte of what is left lies in the table. -/
theorem getElem_of_drop (front : bytes.drop start = first :: rest) :
    ∃ inside : start < bytes.length, bytes[start] = first ∧ bytes.drop (start + 1) = rest := by
  have inside : start < bytes.length := by
    by_contra outside
    rw [List.drop_of_length_le (Nat.not_lt.mp outside)] at front
    cases front
  rw [List.drop_eq_getElem_cons inside] at front
  exact ⟨inside, List.cons.inj front⟩

/-- What is left behind a run. -/
theorem drop_run (front : bytes.drop start = first :: rest) :
    bytes.drop (start + ((splitRun first 127 rest).1 + 1)) = (splitRun first 127 rest).2 := by
  have whole := replicate_splitRun first 127 rest
  calc bytes.drop (start + ((splitRun first 127 rest).1 + 1))
    _ = rest.drop (splitRun first 127 rest).1 := by
        rw [← List.drop_drop, front, List.drop_succ_cons]
    _ = (List.replicate (splitRun first 127 rest).1 first ++ (splitRun first 127 rest).2).drop
          (splitRun first 127 rest).1 := by rw [whole]
    _ = (splitRun first 127 rest).2 := List.drop_left' List.length_replicate

/-- What is left behind a literal packet. -/
theorem drop_literal (front : bytes.drop start = first :: rest) :
    bytes.drop (start + (literalBytes first rest).length) = behindLiteral first rest := by
  rw [← List.drop_drop, front, ← literalBytes_append, List.drop_left]

/-- The loop over a run finds the bytes that repeat the first one, whether it starts at that
byte or behind it. -/
theorem advance_run (front : bytes.drop start = first :: rest)
    (known : stop = start ∨ stop = start + 1) :
    advance bytes.toArray (runsOn bytes.toArray start) stop =
      .ok (start + ((splitRun first 127 rest).1 + 1)) := by
  obtain ⟨inside, byte, behind⟩ := getElem_of_drop front
  rcases known with rfl | rfl
  · have room : stop - stop + 128 = 128 := by omega
    have counted : (splitRun first 128 (first :: rest)).1 = (splitRun first 127 rest).1 + 1 := by
      simp [splitRun]
    rw [advance_runsOn inside (Nat.le_refl _) room, byte, front, counted]
  · have room : start + 1 - start + 127 = 128 := by omega
    have sum : ∀ count, start + 1 + count = start + (count + 1) := by omega
    rw [advance_runsOn inside (Nat.le_add_right _ _) room, byte, behind, sum]

/-- The loop over literal bytes behind a short run finds all bytes of the packet. -/
theorem advance_literal (front : bytes.drop start = first :: rest)
    (short : ¬ 2 ≤ (splitRun first 127 rest).1) :
    advance bytes.toArray (literalOn bytes.toArray start)
      (start + ((splitRun first 127 rest).1 + 1)) =
        .ok (start + (literalBytes first rest).length) := by
  have room : start + ((splitRun first 127 rest).1 + 1) - start +
      (126 - (splitRun first 127 rest).1) = 127 := by
    omega
  rw [advance_literalOn (Nat.le_add_right _ _) room, drop_run front, length_literalBytes,
    Nat.add_assoc]

/-- A literal packet ends within the table. -/
theorem literal_within (front : bytes.drop start = first :: rest) :
    start + (literalBytes first rest).length ≤ bytes.length := by
  obtain ⟨inside, -⟩ := getElem_of_drop front
  have lengths := congrArg List.length (front.trans (literalBytes_append first rest).symm)
  rw [List.length_drop, List.length_append] at lengths
  omega

/-- The bytes of a literal packet are those of the table. -/
theorem slice_literal (front : bytes.drop start = first :: rest) :
    slice bytes.toArray start (start + (literalBytes first rest).length) =
      .ok (literalBytes first rest) := by
  have taken : (bytes.drop start).take (literalBytes first rest).length =
      literalBytes first rest := by
    rw [front, ← literalBytes_append, List.take_left]
  rw [slice, if_pos ⟨Nat.le_add_right _ _, literal_within front⟩]
  simp [List.extract_eq_take_drop, taken]

/-- A packet is scanned as the packing cuts it. -/
theorem scanPacket_repeated (front : bytes.drop start = first :: rest)
    (known : stop = start ∨ stop = start + 1) (long : 2 ≤ (splitRun first 127 rest).1) :
    scanPacket bytes.toArray start stop =
      .ok ((Packet.repeated ((splitRun first 127 rest).1 + 1) first).encode,
        start + ((splitRun first 127 rest).1 + 1), start + ((splitRun first 127 rest).1 + 1)) := by
  obtain ⟨inside, byte, -⟩ := getElem_of_drop front
  have value : fetch bytes.toArray start = .ok first := by
    rw [fetch_eq_getElem inside, List.getElem_toArray, byte]
  rw [scanPacket, advance_run front known, Outcome.ok_bind, distance_eq_ok (Nat.le_add_right _ _),
    Outcome.ok_bind, Nat.add_sub_cancel_left, if_pos (Nat.succ_le_succ long),
    distance_eq_ok (Nat.le_add_left _ _), Outcome.ok_bind, value]
  rfl

/-- Literal bytes are scanned as the packing splits them. -/
theorem scanPacket_literal (front : bytes.drop start = first :: rest)
    (known : stop = start ∨ stop = start + 1) (short : ¬ 2 ≤ (splitRun first 127 rest).1) :
    scanPacket bytes.toArray start stop =
      .ok ((Packet.literal (literalBytes first rest)).encode,
        start + (literalBytes first rest).length,
        start + (literalBytes first rest).length + 1) := by
  have few : ¬ 3 ≤ (splitRun first 127 rest).1 + 1 := by omega
  have ends : start + (literalBytes first rest).length ≤ bytes.toArray.size :=
    literal_within front
  rw [scanPacket, advance_run front known, Outcome.ok_bind, distance_eq_ok (Nat.le_add_right _ _),
    Outcome.ok_bind, Nat.add_sub_cancel_left, if_neg few, advance_literal front short,
    Outcome.ok_bind, slice_literal front, Outcome.ok_bind,
    placeWithin_eq_ok (Nat.succ_le_succ ends), Outcome.ok_bind,
    countByte_eq (Nat.le_add_right _ _), Nat.add_sub_cancel_left]
  rfl

end Front

/-- The scan writes the packets of all bytes from its start on. The induction follows the
cutting into packets. -/
theorem scan_eq_ok (remaining : Bytes) : ∀ start stop, bytes.drop start = remaining →
    (stop = start ∨ stop = start + 1) → scan bytes.toArray start stop = .ok (pack remaining) := by
  fun_induction packets remaining with
  | case1 =>
    intro start stop front known
    have behind : ¬ start < bytes.toArray.size := Nat.not_lt.mpr (List.drop_eq_nil_iff.mp front)
    rw [scan, if_neg behind, pack, packets]
    rfl
  | case2 first rest run long inductionHypothesis =>
    intro start stop front known
    obtain ⟨inside, -⟩ := getElem_of_drop front
    have here := scanPacket_repeated front known long
    have later := inductionHypothesis _ _ (drop_run front) (.inl rfl)
    have packed : pack (first :: rest) =
        (Packet.repeated (run.1 + 1) first).encode ++ pack run.2 := by
      rw [pack, packets, if_pos long, List.flatMap_cons]
      rfl
    rw [scan_cons inside here, later, packed]
    rfl
  | case3 first rest run short tail inductionHypothesis =>
    intro start stop front known
    obtain ⟨inside, -⟩ := getElem_of_drop front
    have here := scanPacket_literal front known short
    have later := inductionHypothesis _ _ (drop_literal front) (.inr rfl)
    have packed : pack (first :: rest) =
        (Packet.literal (literalBytes first rest)).encode ++ pack (behindLiteral first rest) := by
      rw [pack, packets, if_neg short, List.flatMap_cons]
      rfl
    rw [scan_cons inside here, later, packed]
    rfl

/-- The encoder takes no step without a result. -/
theorem compress_eq_ok (samples : Bytes) : compress samples = .ok (RunLength.compress samples) := by
  rw [compress, prepare_eq_ok, Outcome.ok_bind]
  exact scan_eq_ok _ 0 1 List.drop_zero (.inr rfl)

end Exactness

end Packets

end PixelBlocks.Checked

namespace PixelBlocks.RunLength

/-- Whatever the samples are, the encoder ends without a step that has no result, and what it
writes is a row of packets. Repeated bytes are three at least and take two bytes, and literal
bytes without a run among them take one byte more than they are. A literal packet that is not
full is not followed by another one. The packets stand for the prepared samples, the decoder
gives the samples back, and the form is longer by one byte for every 127 at most. -/
theorem compress_packets (samples : Bytes) :
    Checked.compress samples = .ok (compress samples) ∧
    (∃ written : List Packet,
      compress samples = written.flatMap Packet.encode ∧
      (∀ count value, .repeated count value ∈ written →
        3 ≤ count ∧ count ≤ 128 ∧ (Packet.repeated count value).encode.length = 2) ∧
      (∀ values, .literal values ∈ written →
        1 ≤ values.length ∧ values.length ≤ 127 ∧
          (Packet.literal values).encode.length = values.length + 1 ∧
          ∀ before value after, values ≠ before ++ value :: value :: value :: after) ∧
      (∀ before first second after,
        written = before ++ .literal first :: .literal second :: after → first.length = 127) ∧
      written.flatMap Packet.expand = Differences.ofSamples (Separation.separate samples)) ∧
    decompress samples.length (compress samples) = .ok samples ∧
    (compress samples).length ≤ samples.length + (samples.length + 126) / 127 := by
  refine ⟨Checked.compress_eq_ok samples, ?_, ?_, ?_⟩
  · have economical := economical_of_mem_packets (Preparation.prepare samples)
    refine ⟨packets (Preparation.prepare samples), rfl, ?_, ?_, ?_, ?_⟩
    · intro count value member
      obtain ⟨least, most⟩ := economical _ member
      exact ⟨least, most, rfl⟩
    · intro values member
      obtain ⟨⟨least, most⟩, plain⟩ := economical _ member
      exact ⟨least, most, rfl, plain⟩
    · intro before first second after cut
      exact length_eq_of_literals _ before cut
    · exact flatMap_expand_packets _
  · exact decompress_pack_prepare (Nat.le_refl _)
  · have grown := length_pack_le (Preparation.prepare samples)
    rw [Preparation.length_prepare] at grown
    exact Nat.le_trans (Nat.le_add_right _ _) grown

end PixelBlocks.RunLength

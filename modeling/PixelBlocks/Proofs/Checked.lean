import Mathlib.Algebra.Group.Int.Defs
import Mathlib.Algebra.Group.Nat.Defs
import PixelBlocks.Bytes
import PixelBlocks.Fault
import PixelBlocks.Proofs.Outcome

/-!
# Checked steps

The definitions of this library are total: words wrap, a missing byte of a table counts
as zero, and a list that is too short is split into what there is. A machine word or a
table has no result there. So programs are written once more from steps that are checked
and stop without a result. A checked program that comes to the outcome of the plain one
has shown that all of its steps have results.

Numbers are exact in checked programs, and each sum, product or quotient has to fit its
word. The length of bytes that exist is a number like any other. Steps that a program
itself decides before it takes them, such as reading from bytes that may be too few, are
taken over as they are. Memory is not limited, but room is only found for as many bytes as
a buffer can have.
-/

namespace PixelBlocks

/-- Why a checked program stops. -/
inductive Stop
  /-- The program refuses its input. -/
  | fault (fault : Fault)
  /-- A step has no result. -/
  | outOfRange
  deriving DecidableEq, Repr

/-- A result, or the reason why there is none. -/
abbrev Checked := Except Stop

namespace Checked

variable {Input Result : Type}

/-- An outcome that was reached by steps which all have results. -/
def ofOutcome : Outcome Result → Checked Result
  | .ok result => .ok result
  | .error fault => .error (.fault fault)

/-- The number, if it is a signed word of the given width. -/
def signed (width : Nat) (value : Int) : Checked Int :=
  if -2 ^ (width - 1) ≤ value ∧ value < 2 ^ (width - 1) then .ok value else .error .outOfRange

/-- The number, if it is a size. -/
def size (value : Int) : Checked Nat :=
  if 0 ≤ value ∧ value < Size.bound then .ok value.toNat else .error .outOfRange

/-- The quotient towards zero, if there is one and it is a signed word. -/
def quotient (width : Nat) (dividend divisor : Int) : Checked Int :=
  if divisor = 0 then .error .outOfRange else signed width (dividend.tdiv divisor)

/-- The quotient of two sizes, if there is one. -/
def ratio (dividend divisor : Nat) : Checked Nat :=
  if divisor = 0 then .error .outOfRange else .ok (dividend / divisor)

/-- Room for as many bytes, if a buffer can have them. -/
def reserve (capacity : Nat) : Checked Unit :=
  if capacity < Size.bufferBound then .ok () else .error .outOfRange

/-- The byte at a place, if the table has one. -/
def fetch (table : Array UInt8) (place : Nat) : Checked UInt8 :=
  match table[place]? with
  | some byte => .ok byte
  | none => .error .outOfRange

/-- The table with another byte at a place, if it has that place. -/
def store (table : Array UInt8) (place : Nat) (byte : UInt8) : Checked (Array UInt8) :=
  if place < table.size then .ok (table.setIfInBounds place byte) else .error .outOfRange

/-- A place in a table, directly behind it, or one further. No table is so large that these
are no sizes. -/
def placeWithin (table : Array UInt8) (place : Nat) : Checked Nat :=
  if place ≤ table.size + 1 then .ok place else .error .outOfRange

/-- Two parts of bytes, if there are enough for the first. -/
def cut (count : Nat) (bytes : Bytes) : Checked (Bytes × Bytes) :=
  if count ≤ bytes.length then .ok (bytes.take count, bytes.drop count) else .error .outOfRange

/-- Bytes that are written over as many others. -/
def overwrite (old new : Bytes) : Checked Bytes :=
  if old.length = new.length then .ok new else .error .outOfRange

/-- Results stay results. -/
@[simp] theorem ofOutcome_ok (result : Result) :
    ofOutcome (.ok result : Outcome Result) = .ok result := rfl

/-- Faults stay faults. -/
@[simp] theorem ofOutcome_error (fault : Fault) :
    ofOutcome (.error fault : Outcome Result) = .error (.fault fault) := rfl

/-- The steps of two operations in a row are those of the first and then those of the
second. -/
@[simp] theorem ofOutcome_bind (first : Outcome Input) (next : Input → Outcome Result) :
    ofOutcome (first >>= next) = ofOutcome first >>= fun result => ofOutcome (next result) := by
  cases first <;> rfl

/-- Two checked operations come to the outcome of two plain ones if the first does, and the
second does on every result of the first. -/
theorem bind_eq_ofOutcome {first : Checked Input} {plainFirst : Outcome Input}
    {next : Input → Checked Result} {plainNext : Input → Outcome Result}
    (start : first = ofOutcome plainFirst)
    (follow : ∀ input, plainFirst = .ok input → next input = ofOutcome (plainNext input)) :
    (first >>= next) = ofOutcome (plainFirst >>= plainNext) := by
  rw [start]
  cases plainFirst with
  | error fault => rfl
  | ok input => exact follow input rfl

/-- A guard that refuses for the same reason leaves the operations behind it. -/
theorem guard_eq_ofOutcome {condition : Prop} [Decidable condition] {fault : Fault}
    {checked : Checked Result} {plain : Outcome Result}
    (rest : ¬ condition → checked = ofOutcome plain) :
    (if condition then .error (.fault fault) else checked) =
      ofOutcome (if condition then .error fault else plain) := by
  by_cases refused : condition
  · rw [if_pos refused, if_pos refused]
    rfl
  · rw [if_neg refused, if_neg refused]
    exact rest refused

/-- Checked steps that all come to the outcomes of the plain ones do so in a row. -/
theorem foldlM_eq_ofOutcome {State : Type} {plain : State → Input → Outcome State}
    {checked : State → Input → Checked State} {inputs : List Input}
    (each : ∀ input ∈ inputs, ∀ state, checked state input = ofOutcome (plain state input))
    (state : State) : inputs.foldlM checked state = ofOutcome (inputs.foldlM plain state) := by
  induction inputs generalizing state with
  | nil => rfl
  | cons input rest inductionHypothesis =>
    obtain ⟨here, later⟩ := List.forall_mem_cons.mp each
    rw [List.foldlM_cons, List.foldlM_cons]
    exact bind_eq_ofOutcome (here state) fun next _ => inductionHypothesis later next

/-- Checked operations of a list that all come to the outcomes of the plain ones do so
together. -/
theorem mapM_eq_ofOutcome {plain : Input → Outcome Result} {checked : Input → Checked Result}
    {inputs : List Input} (each : ∀ input ∈ inputs, checked input = ofOutcome (plain input)) :
    inputs.mapM checked = ofOutcome (inputs.mapM plain) := by
  induction inputs with
  | nil => rfl
  | cons input rest inductionHypothesis =>
    obtain ⟨here, later⟩ := List.forall_mem_cons.mp each
    rw [List.mapM_cons, List.mapM_cons, here, inductionHypothesis later]
    simp

/-- A number within the word is a signed word. -/
theorem signed_eq_ok {width : Nat} {value : Int} (least : -2 ^ (width - 1) ≤ value)
    (most : value < 2 ^ (width - 1)) : signed width value = .ok value :=
  if_pos ⟨least, most⟩

/-- A signed 32-bit number is the number of a word with that value. -/
theorem toInt_of_signed {value result : Int} (checked : signed 32 value = .ok result)
    {word : Int32} (wrapped : word.toInt = value.bmod (2 ^ 32)) : word.toInt = result := by
  by_cases fits : -2 ^ (32 - 1) ≤ value ∧ value < 2 ^ (32 - 1)
  · rw [signed, if_pos fits] at checked
    cases checked
    rw [wrapped, Int.bmod_eq_of_le (by omega) (by omega)]
  · rw [signed, if_neg fits] at checked
    cases checked

/-- A number below the bound that is not negative is a size. -/
theorem size_eq_ok {value : Int} (least : 0 ≤ value) (most : value < Size.bound) :
    size value = .ok value.toNat :=
  if_pos ⟨least, most⟩

/-- A natural number below the bound is a size. -/
theorem size_natCast {value : Nat} (fits : value < Size.bound) : size value = .ok value :=
  size_eq_ok (Int.natCast_nonneg value) (by exact_mod_cast fits)

/-- A natural number of 32 bits is a size. -/
theorem size_word {value : Nat} (word : value < 0x100000000) : size value = .ok value :=
  size_natCast (Nat.lt_trans word (by decide))

/-- There is a quotient of any size and a positive one. -/
theorem ratio_eq_ok {dividend divisor : Nat} (positive : 0 < divisor) :
    ratio dividend divisor = .ok (dividend / divisor) :=
  if_neg (Nat.ne_of_gt positive)

/-- There is room for as many bytes as a buffer can have. -/
theorem reserve_eq_ok {capacity : Nat} (held : capacity < Size.bufferBound) :
    reserve capacity = .ok () :=
  if_pos held

/-- A table has a byte at every place within it. -/
theorem fetch_eq_ok {table : Array UInt8} {place : Nat} (inside : place < table.size) :
    fetch table place = .ok (table.getD place 0) := by
  simp [fetch, inside]

/-- Places up to one behind the end are sizes. -/
theorem placeWithin_eq_ok {table : Array UInt8} {place : Nat} (near : place ≤ table.size + 1) :
    placeWithin table place = .ok place :=
  if_pos near

/-- Enough bytes are cut. -/
theorem cut_eq_ok {count : Nat} {bytes : Bytes} (enough : count ≤ bytes.length) :
    cut count bytes = .ok (bytes.take count, bytes.drop count) :=
  if_pos enough

/-- Bytes are written over as many others. -/
theorem overwrite_eq_ok {old new : Bytes} (same : old.length = new.length) :
    overwrite old new = .ok new :=
  if_pos same

end Checked

end PixelBlocks

import Mathlib.Data.List.Forall2
import PixelBlocks.Fault

/-!
# Runs of operations that may fail

A sequence of operations succeeds exactly if each of them does, in order. The
lemmas take such runs apart, for two operations and for the operations of a list.
They speak of any class of faults, because schedules do.
-/

namespace PixelBlocks.Outcome

variable {Fault Input Result Final : Type}

/-- A successful first operation hands its result to the second. -/
@[simp] theorem ok_bind (result : Input) (next : Input → Except Fault Result) :
    (Except.ok result >>= next) = next result := rfl

/-- Nothing runs after a fault. -/
@[simp] theorem error_bind (fault : Fault) (next : Input → Except Fault Result) :
    (Except.error fault >>= next) = .error fault := rfl

/-- Returning is succeeding. -/
@[simp] theorem pure_eq_ok (result : Result) :
    (pure result : Except Fault Result) = .ok result := rfl

/-- Two operations succeed exactly if the first does and the second does on its
result. -/
theorem bind_eq_ok_iff {first : Except Fault Input} {next : Input → Except Fault Result}
    {result : Result} :
    (first >>= next) = .ok result ↔ ∃ middle, first = .ok middle ∧ next middle = .ok result := by
  cases first <;> simp

/-- Presenting a result succeeds exactly if there is one. -/
theorem map_eq_ok_iff {image : Input → Result} {operation : Except Fault Input} {result : Result} :
    operation.map image = .ok result ↔
      ∃ middle, operation = .ok middle ∧ image middle = result := by
  cases operation <;> simp [Except.map]

/-- A guarded operation succeeds exactly if the guard does not refuse and the operation
succeeds. -/
theorem guard_eq_ok_iff {condition : Prop} [Decidable condition] {fault : Fault}
    {next : Except Fault Result} {result : Result} :
    (if condition then .error fault else next) = .ok result ↔
      ¬ condition ∧ next = .ok result := by
  by_cases refused : condition <;> simp [refused]

/-- The operations of a list succeed exactly if each does, with results in the
order of the inputs. -/
theorem mapM_eq_ok_iff {task : Input → Except Fault Result} {inputs : List Input}
    {results : List Result} :
    inputs.mapM task = .ok results ↔
      List.Forall₂ (fun input result => task input = .ok result) inputs results := by
  induction inputs generalizing results with
  | nil => cases results <;> simp
  | cons input rest inductionHypothesis =>
    rw [List.mapM_cons]
    constructor
    · intro succeeded
      obtain ⟨result, here, later⟩ := bind_eq_ok_iff.mp succeeded
      obtain ⟨others, there, same⟩ := bind_eq_ok_iff.mp later
      cases same
      exact .cons here (inductionHypothesis.mp there)
    · intro related
      cases related with
      | cons here there => simp [here, inductionHypothesis.mpr there]

/-- Every result of a list of operations is that of one of them. -/
theorem exists_of_mem_mapM {task : Input → Except Fault Result} {inputs : List Input}
    {results : List Result} (succeeded : inputs.mapM task = .ok results) {result : Result}
    (member : result ∈ results) : ∃ input ∈ inputs, task input = .ok result := by
  have related := mapM_eq_ok_iff.mp succeeded
  clear succeeded
  induction related with
  | nil => cases member
  | @cons input first inputs results here _ inductionHypothesis =>
    rcases List.mem_cons.mp member with rfl | later
    · exact ⟨input, List.mem_cons_self, here⟩
    · obtain ⟨other, listed, succeeds⟩ := inductionHypothesis later
      exact ⟨other, List.mem_cons_of_mem _ listed, succeeds⟩

/-- The operations of a list fail exactly with the fault of the first that fails. -/
theorem mapM_eq_error_iff {task : Input → Except Fault Result} {inputs : List Input}
    {fault : Fault} :
    inputs.mapM task = .error fault ↔
      ∃ before input after, inputs = before ++ input :: after ∧
        (∀ earlier ∈ before, ∃ result, task earlier = .ok result) ∧ task input = .error fault := by
  induction inputs with
  | nil => simp
  | cons first rest inductionHypothesis =>
    rw [List.mapM_cons]
    cases here : task first with
    | error found =>
      rw [error_bind]
      constructor
      · rintro ⟨⟩
        exact ⟨[], first, rest, rfl, by simp, here⟩
      · rintro ⟨_ | ⟨earlier, before⟩, input, after, split, succeeded, failed⟩
        · cases split
          cases here.symm.trans failed
          rfl
        · cases split
          obtain ⟨result, succeeds⟩ := succeeded first List.mem_cons_self
          cases here.symm.trans succeeds
    | ok result =>
      have later : (rest.mapM task >>= fun others => pure (result :: others)) = .error fault ↔
          rest.mapM task = .error fault := by
        cases rest.mapM task <;> simp
      rw [ok_bind, later, inductionHypothesis]
      constructor
      · rintro ⟨before, input, after, rfl, succeeded, failed⟩
        refine ⟨first :: before, input, after, rfl, ?_, failed⟩
        exact List.forall_mem_cons.mpr ⟨⟨result, here⟩, succeeded⟩
      · rintro ⟨_ | ⟨earlier, before⟩, input, after, split, succeeded, failed⟩
        · cases split
          cases here.symm.trans failed
        · cases split
          exact ⟨before, input, after, rfl, (List.forall_mem_cons.mp succeeded).2, failed⟩

/-- Operations that all succeed give the list of their results. -/
theorem mapM_eq_ok_map {task : Input → Except Fault Result} {image : Input → Result}
    {inputs : List Input} (succeeds : ∀ input ∈ inputs, task input = .ok (image input)) :
    inputs.mapM task = .ok (inputs.map image) := by
  rw [mapM_eq_ok_iff, List.forall₂_map_right_iff, List.forall₂_same]
  exact succeeds

end PixelBlocks.Outcome

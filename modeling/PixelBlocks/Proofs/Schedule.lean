import PixelBlocks.Proofs.Outcome
import PixelBlocks.Schedule

/-!
# Schedules do not change results

Each task fills only its own slot, with a value that depends on its input alone.
After a task has run, its slot keeps that value however the other tasks follow;
and since every task runs, no slot stays empty. So the results are those of running
the tasks one after another in the order of their inputs.
-/

namespace PixelBlocks.Schedule

variable {Input Result : Type}

/-- Running a task leaves the number of slots as it was. -/
@[simp] theorem length_runTask (task : Input → Result) (inputs : List Input)
    (slots : List (Option Result)) (index : Nat) :
    (runTask task inputs slots index).length = slots.length := by
  unfold runTask
  split <;> simp

/-- One task fills the slot of its own number and no other. -/
theorem getElem?_runTask (task : Input → Result) (inputs : List Input)
    (slots : List (Option Result)) (sized : slots.length = inputs.length) (index slot : Nat) :
    (runTask task inputs slots index)[slot]? =
      if index = slot then inputs[slot]?.map (some ∘ task) else slots[slot]? := by
  unfold runTask
  by_cases same : index = slot
  · subst same
    cases found : inputs[index]? with
    | none =>
      have outside : slots.length ≤ index := sized ▸ List.getElem?_eq_none_iff.mp found
      simp [outside]
    | some input =>
      have inside : index < slots.length := sized ▸ (List.getElem?_eq_some_iff.mp found).1
      simp [inside]
  · rw [if_neg same]
    split
    · exact List.getElem?_set_ne same
    · rfl

/-- After a run a slot holds the result of its task if that was among the tasks
that ran, and what it held before if not. The induction is on the tasks still to
run, for any contents of the slots. -/
theorem getElem?_foldl_runTask (task : Input → Result) (inputs : List Input) (order : List Nat)
    (slots : List (Option Result)) (sized : slots.length = inputs.length) (slot : Nat) :
    (order.foldl (runTask task inputs) slots)[slot]? =
      if slot ∈ order then inputs[slot]?.map (some ∘ task) else slots[slot]? := by
  induction order generalizing slots with
  | nil => simp
  | cons index later inductionHypothesis =>
    have stillSized : (runTask task inputs slots index).length = inputs.length :=
      (length_runTask task inputs slots index).trans sized
    rw [List.foldl_cons, inductionHypothesis _ stillSized, getElem?_runTask task inputs slots sized]
    by_cases again : slot ∈ later
    · simp [again]
    · by_cases here : index = slot
      · simp [here]
      · simp [again, here, Ne.symm here]

/-- Slots that are all filled hold the results in the order of the inputs. -/
theorem filterMap_filled (task : Input → Result) (inputs : List Input) :
    (inputs.map (some ∘ task)).filterMap id = inputs.map task := by
  simp [List.filterMap_map, Function.comp_def]

/-- Whatever the order in which the tasks run, the results are those of the inputs
in their order. -/
theorem run_eq_map (schedule : Schedule) (task : Input → Result) (inputs : List Input) :
    schedule.run task inputs = inputs.map task := by
  have filled : (schedule.order inputs.length).foldl (runTask task inputs)
      (List.replicate inputs.length none) = inputs.map (some ∘ task) := by
    apply List.ext_getElem?
    intro slot
    have scheduled : slot ∈ schedule.order inputs.length ↔ slot < inputs.length :=
      (schedule.complete inputs.length).mem_iff.trans List.mem_range
    rw [getElem?_foldl_runTask task inputs _ _ (by simp), List.getElem?_map]
    by_cases inside : slot < inputs.length
    · rw [if_pos (scheduled.mpr inside)]
    · rw [if_neg (mt scheduled.mp inside)]
      simp [Nat.le_of_not_lt inside]
  rw [run, filled, filterMap_filled]

/-- Tasks that may fail have the same outcome under every schedule: the results of
all, or the fault of the first input that fails. -/
theorem runAll_eq_mapM {Fault : Type} (schedule : Schedule)
    (task : Input → Except Fault Result) (inputs : List Input) :
    schedule.runAll task inputs = inputs.mapM task := by
  rw [runAll, run_eq_map, List.mapM_map]
  rfl

end PixelBlocks.Schedule

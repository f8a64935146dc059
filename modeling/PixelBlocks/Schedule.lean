/-!
# Schedules

Independent tasks may run in any order. Each task has a slot of its own and
fills it when it runs; the results are read from the slots in the order of the
inputs. A schedule says in which order the tasks run.
-/

namespace PixelBlocks

/-- An order of running any number of tasks, in which each task runs once. -/
structure Schedule where
  /-- The numbers of the tasks in the order in which they run. -/
  order : (count : Nat) → List Nat
  complete : ∀ count, (order count).Perm (List.range count)

namespace Schedule

/-- Runs the tasks in the order of their numbers. -/
def inOrder : Schedule := ⟨List.range, fun _ => List.Perm.refl _⟩

/-- Runs the tasks from last to first. -/
def reversed : Schedule := ⟨fun count => (List.range count).reverse, fun _ => List.reverse_perm _⟩

/-- Runs the task of one input, which fills its slot. -/
def runTask {Input Result : Type} (task : Input → Result) (inputs : List Input)
    (slots : List (Option Result)) (index : Nat) : List (Option Result) :=
  match inputs[index]? with
  | some input => slots.set index (some (task input))
  | none => slots

/-- The results of all tasks in the order of the inputs. -/
def run {Input Result : Type} (schedule : Schedule) (task : Input → Result)
    (inputs : List Input) : List Result :=
  let empty := List.replicate inputs.length none
  ((schedule.order inputs.length).foldl (runTask task inputs) empty).filterMap id

/-- The results of tasks that may fail, or the fault of the first input that
    failed. -/
def runAll {Input Result Fault : Type} (schedule : Schedule)
    (task : Input → Except Fault Result) (inputs : List Input) : Except Fault (List Result) :=
  (schedule.run task inputs).mapM id

-- Results keep the order of the inputs also when the last task runs first.
example : reversed.run (· + 1) [10, 20, 30] = [11, 21, 31] := by decide

end Schedule

end PixelBlocks

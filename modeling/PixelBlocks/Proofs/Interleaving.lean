import Mathlib.Algebra.GroupWithZero.Nat
import Mathlib.Logic.Relation
import PixelBlocks.Proofs.Schedule

/-!
# Tasks side by side

A schedule runs its tasks one at a time. Workers do not wait for each other: between the
moment when a task has computed its result and the moment when it fills its slot, others
may start, compute and fill theirs. Here each task takes these two steps on its own, in
any interleaving. The scope returns when all tasks have ended. It always can get there,
and by then every slot holds the result of its own input.
-/

namespace PixelBlocks

/-- How far a task has come. -/
inductive Progress (Result : Type)
  | waiting
  | computed (result : Result)
  | ended

/-- How many steps a task has before it. -/
def Progress.left {Result : Type} : Progress Result → Nat
  | .waiting => 2
  | .computed _ => 1
  | .ended => 0

/-- Tasks that run side by side, and the slots that they fill. -/
structure Scope (Result : Type) where
  tasks : List (Progress Result)
  slots : List (Option Result)

namespace Scope

variable {Input Result : Type} {task : Input → Result} {inputs : List Input}
variable {scope next : Scope Result}

/-- A scope whose tasks wait, with empty slots. -/
def start (Result : Type) (count : Nat) : Scope Result :=
  ⟨List.replicate count .waiting, List.replicate count none⟩

/-- One of the tasks goes on: it computes the result of its input, or it fills its slot. -/
inductive Step (task : Input → Result) (inputs : List Input) : Scope Result → Scope Result → Prop
  | compute {scope : Scope Result} {index : Nat} {input : Input} :
    scope.tasks[index]? = some .waiting → inputs[index]? = some input →
    Step task inputs scope
      { scope with tasks := scope.tasks.set index (.computed (task input)) }
  | fill {scope : Scope Result} {index : Nat} {result : Result} :
    scope.tasks[index]? = some (.computed result) →
    Step task inputs scope
      ⟨scope.tasks.set index .ended, scope.slots.set index (some result)⟩

/-- All tasks have ended. -/
def Finished (scope : Scope Result) : Prop :=
  ∀ progress ∈ scope.tasks, progress = .ended

/-- Every task that has computed something has computed the result of its own input, and
every task that has ended has filled its own slot with it. -/
structure Consistent (task : Input → Result) (inputs : List Input) (scope : Scope Result) :
    Prop where
  tasks : scope.tasks.length = inputs.length
  slots : scope.slots.length = inputs.length
  computed : ∀ (index : Nat) (result : Result), scope.tasks[index]? = some (.computed result) →
    inputs[index]?.map task = some result
  ended : ∀ index : Nat, scope.tasks[index]? = some .ended →
    scope.slots[index]? = inputs[index]?.map (some ∘ task)

section Invariant

/-- Nothing is computed at the start. -/
theorem consistent_start (task : Input → Result) (inputs : List Input) :
    Consistent task inputs (start Result inputs.length) where
  tasks := by simp [start]
  slots := by simp [start]
  computed index result found := by simp [start, List.getElem?_replicate] at found
  ended index found := by simp [start, List.getElem?_replicate] at found

/-- A step keeps results and slots with their inputs. -/
theorem Consistent.step (consistent : Consistent task inputs scope)
    (stepped : Step task inputs scope next) : Consistent task inputs next := by
  obtain ⟨tasks, slots, computed, ended⟩ := consistent
  cases stepped with
  | @compute index input waiting given =>
    -- the task that goes on has its own input; all others are as they were
    refine ⟨by simpa using tasks, slots, ?_, ?_⟩
    · intro other result found
      rw [List.getElem?_set] at found
      split at found
      · next same =>
        subst same
        split at found
        · cases found
          rw [given, Option.map_some]
        · cases found
      · exact computed other result found
    · intro other found
      rw [List.getElem?_set] at found
      split at found
      · split at found <;> cases found
      · exact ended other found
  | @fill index result ready =>
    -- what is stored was computed from the input of the same place
    have own := computed index result ready
    refine ⟨by simpa using tasks, by simpa using slots, ?_, ?_⟩
    · intro other found there
      rw [List.getElem?_set] at there
      split at there
      · split at there <;> cases there
      · exact computed other found there
    · intro other found
      rw [List.getElem?_set] at found
      by_cases same : index = other
      · subst same
        have inside : index < scope.slots.length := by
          obtain ⟨input, given, -⟩ := Option.map_eq_some_iff.mp own
          rw [slots]
          exact (List.getElem?_eq_some_iff.mp given).1
        rw [List.getElem?_set_self inside, ← Option.map_map, own]
        rfl
      · rw [if_neg same] at found
        rw [List.getElem?_set_ne same]
        exact ended other found

/-- So do any number of steps. -/
theorem Consistent.steps (consistent : Consistent task inputs scope)
    (stepped : Relation.ReflTransGen (Step task inputs) scope next) :
    Consistent task inputs next := by
  induction stepped with
  | refl => exact consistent
  | tail _ step inductionHypothesis => exact inductionHypothesis.step step

/-- When all tasks have ended, all slots are filled, in the order of the inputs. -/
theorem Consistent.slots_eq (consistent : Consistent task inputs scope)
    (finished : scope.Finished) : scope.slots = inputs.map (some ∘ task) := by
  apply List.ext_getElem?
  intro index
  rw [List.getElem?_map]
  by_cases inside : index < scope.tasks.length
  · apply consistent.ended
    rw [List.getElem?_eq_getElem inside]
    exact congrArg some (finished _ (List.getElem_mem inside))
  · have outside := Nat.le_of_not_lt inside
    rw [consistent.tasks] at outside
    rw [List.getElem?_eq_none (by rwa [consistent.slots]), List.getElem?_eq_none outside]
    rfl

end Invariant

section Completion

/-- How many steps the tasks have before them. -/
def left (scope : Scope Result) : Nat := (scope.tasks.map Progress.left).sum

/-- Moving one task on changes the number of steps by its own. -/
theorem sum_left_set {tasks : List (Progress Result)} {index : Nat} {before : Progress Result}
    (found : tasks[index]? = some before) (after : Progress Result) :
    ((tasks.set index after).map Progress.left).sum + before.left =
      (tasks.map Progress.left).sum + after.left := by
  induction tasks generalizing index with
  | nil => simp at found
  | cons first rest inductionHypothesis =>
    cases index with
    | zero =>
      cases found
      simp only [List.set_cons_zero, List.map_cons, List.sum_cons]
      omega
    | succ index =>
      have later := inductionHypothesis (List.getElem?_cons_succ.symm.trans found)
      simp only [List.set_cons_succ, List.map_cons, List.sum_cons]
      omega

/-- Every step is one step less. -/
theorem left_of_step (stepped : Step task inputs scope next) : next.left + 1 = scope.left := by
  cases stepped with
  | @compute index input waiting given =>
    have moved := sum_left_set waiting (.computed (task input))
    simp only [Progress.left] at moved
    simp only [left]
    omega
  | @fill index result ready =>
    have moved := sum_left_set ready .ended
    simp only [Progress.left] at moved
    simp only [left]
    omega

/-- Until all tasks have ended, one of them can go on. -/
theorem Consistent.exists_step (consistent : Consistent task inputs scope)
    (unfinished : ¬ scope.Finished) : ∃ next, Step task inputs scope next := by
  obtain ⟨progress, member, running⟩ : ∃ progress ∈ scope.tasks, progress ≠ .ended := by
    simpa [Finished] using unfinished
  obtain ⟨index, found⟩ := List.getElem?_of_mem member
  cases progress with
  | waiting =>
    have inside : index < inputs.length := by
      rw [← consistent.tasks]
      exact (List.getElem?_eq_some_iff.mp found).1
    exact ⟨_, .compute found (List.getElem?_eq_getElem inside)⟩
  | computed result => exact ⟨_, .fill found⟩
  | ended => exact absurd rfl running

/-- So all of them end after finitely many steps. The induction is on the steps left. -/
theorem Consistent.exists_finished (consistent : Consistent task inputs scope) :
    ∃ final, Relation.ReflTransGen (Step task inputs) scope final ∧ final.Finished := by
  induction steps : scope.left using Nat.strongRecOn generalizing scope with
  | _ steps inductionHypothesis =>
    by_cases finished : scope.Finished
    · exact ⟨scope, .refl, finished⟩
    · obtain ⟨next, stepped⟩ := consistent.exists_step finished
      have fewer := left_of_step stepped
      obtain ⟨final, later, finished⟩ :=
        inductionHypothesis next.left (by omega) (consistent.step stepped) rfl
      exact ⟨final, later.head stepped, finished⟩

end Completion

section Outcomes

variable {Fault : Type} {task : Input → Except Fault Result}

/-- What a scope of tasks that may fail can return: when all tasks have ended, the results in
the slots that are filled, or the first fault among them. -/
def Returns (task : Input → Except Fault Result) (inputs : List Input)
    (outcome : Except Fault (List Result)) : Prop :=
  ∃ scope, Relation.ReflTransGen (Step task inputs) (start _ inputs.length) scope ∧
    scope.Finished ∧ outcome = (scope.slots.filterMap id).mapM id

/-- In every interleaving a scope returns what the tasks return one after the other. -/
theorem returns_iff {outcome : Except Fault (List Result)} :
    Returns task inputs outcome ↔ outcome = inputs.mapM task := by
  have collected : ((inputs.map (some ∘ task)).filterMap id).mapM id = inputs.mapM task := by
    rw [Schedule.filterMap_filled, List.mapM_map]
    rfl
  constructor
  · rintro ⟨scope, steps, finished, rfl⟩
    rw [((consistent_start task inputs).steps steps).slots_eq finished, collected]
  · rintro rfl
    obtain ⟨scope, steps, finished⟩ := (consistent_start task inputs).exists_finished
    refine ⟨scope, steps, finished, ?_⟩
    rw [((consistent_start task inputs).steps steps).slots_eq finished, collected]

end Outcomes

end Scope

end PixelBlocks

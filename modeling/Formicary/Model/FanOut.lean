import Formicary.Model.ResourceManager

/-! # Fanning out a task

A goroutine for every item, of which as many run at a time as the semaphore admits. What the
children answer is left out. -/

namespace Formicary.FanOut

/-- What the fan-out of a task reads of the request and its configuration. -/
structure Task where
  jobRequestID : String
  taskType : String
  tags : List String
  executionMethod : TaskMethod
  maxParallel : ℤ
  items : List String

def Task.concurrency (task : Task) : ℕ :=
  if task.maxParallel ≤ 0 ∨ task.maxParallel > task.items.length then task.items.length
  else task.maxParallel.toNat

/-- How far the goroutine of an item has come. -/
inductive Child where
  | waiting
  /-- past the semaphore -/
  | acquired
  /-- an ant has been reserved -/
  | dispatched (reservation : Resource.AntReservation)
  | finished
  deriving DecidableEq, Repr

def Child.busy : Child → Bool
  | .waiting => false
  | .acquired => true
  | .dispatched _ => true
  | .finished => false

structure State where
  resources : Resource.State
  children : List Child

/-- `dispatchTasksAndWait` starts with all the goroutines before the semaphore. -/
def start (task : Task) (resources : Resource.State) : State :=
  ⟨resources, task.items.map fun _ => .waiting⟩

inductive Action where
  | acquire (i : ℕ)
  /-- the context is done before the goroutine is past the semaphore -/
  | skip (i : ℕ)
  | reserve (i : ℕ) (now : Time) (choice : ℕ)
  | release (i : ℕ)

namespace State

variable (st : State)

def set (i : ℕ) (child : Child) : State :=
  { st with children := st.children.set i child }

/-- `dispatchTasksAndWait` and `dispatchSingleTask`, by what they do to the resources. -/
def step (task : Task) (timeout : Time) : Action → Option State
  | .acquire i =>
    if st.children[i]? = some .waiting ∧ st.children.countP Child.busy < task.concurrency then
      some (st.set i .acquired)
    else none
  | .skip i => if st.children[i]? = some .waiting then some (st.set i .finished) else none
  | .reserve i now choice =>
    if st.children[i]? = some .acquired then
      if task.executionMethod.name = "" ∨ !task.executionMethod.isValid then
        some (st.set i .finished)
      else
        match Resource.doReserve st.resources
            ⟨task.jobRequestID, task.taskType, task.executionMethod, task.tags, false⟩ timeout now
            choice with
        | none => none
        | some (resources, .ok reservation) =>
          some ({ st with resources }.set i (.dispatched reservation))
        | some (resources, .error _) => some ({ st with resources }.set i .finished)
    else none
  | .release i =>
    match st.children[i]? with
    | some (.dispatched reservation) =>
      some ({ st with resources := (Resource.release st.resources reservation).1 }.set i .finished)
    | _ => none

end State

def system (task : Task) (timeout : Time) : TransitionSystem State Action where
  init st := ∃ resources, st = start task resources
  step st := st.step task timeout

end Formicary.FanOut

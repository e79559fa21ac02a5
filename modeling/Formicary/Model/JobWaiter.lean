import Formicary.Model.Queen
import Formicary.Model.TaskRequest

/-! # Waiting for forked jobs

How a task polls the jobs it has forked until they have ended. Log lines and the response that is
built from the jobs are left out. -/

namespace Formicary

structure JobWaiter where
  requestIDs : List String
  requests : FinMap String JobRequest
  /-- whether the channel holds a signal -/
  notify : Bool

namespace JobWaiter

/-- The id under which a task has left the job it forked. A variable that is missing is nil. -/
def forkedJobID (vars : Variables) (taskType : String) : Except String String :=
  let reqKey := taskType ++ ".ForkedJobID"
  match vars.lookup reqKey with
  | none => .error ("failed to find job-id for " ++ reqKey)
  | some ⟨.string val, _⟩ => if val = "" then .error ("empty job-id for " ++ reqKey) else .ok val
  | some ⟨val, _⟩ =>
    if val.print = "" ∨ val.print = "<nil>" then
      .error ("invalid job-id for " ++ reqKey ++ ": " ++ val.print)
    else .ok val.print

def buildJobIDs (awaitForkedTasks : List String) (vars : Variables) : Except String (List String) :=
  if awaitForkedTasks = [] then .error "no task types defined for await_forked_tasks"
  else awaitForkedTasks.mapM (forkedJobID vars)

def newJobWaiter (awaitForkedTasks : List String) (vars : Variables) : Except String JobWaiter :=
  (buildJobIDs awaitForkedTasks vars).map fun requestIDs => ⟨requestIDs, ∅, false⟩

variable (jw : JobWaiter)

def completed : Bool :=
  jw.requests.size == jw.requestIDs.length

/-- The loop of `Poll`. What it has recorded before a read fails stays recorded. -/
def pollIDs (getJobRequest : String → Except String JobRequest) :
    List String → FinMap String JobRequest → FinMap String JobRequest × Option String
  | [], requests => (requests, none)
  | id :: ids, requests =>
    if id ∈ requests then pollIDs getJobRequest ids requests
    else
      match getJobRequest id with
      | .error err => (requests, some err)
      | .ok req => pollIDs getJobRequest ids
          (if req.jobState.isTerminal then requests.insert id req else requests)

def poll (ctxErr : Option String) (getJobRequest : String → Except String JobRequest) :
    JobWaiter × Except String Bool :=
  match ctxErr with
  | some err => (jw, .error err)
  | none =>
    let (requests, err) := pollIDs getJobRequest jw.requestIDs jw.requests
    let jw := { jw with requests }
    (jw, err.elim (.ok jw.completed) .error)

def matchesJobIDs (event : JobExecutionLifecycleEvent) : Bool :=
  event.jobState.isTerminal && jw.requestIDs.contains event.jobRequestID

def updateFromJobLifecycleEvent (event : JobExecutionLifecycleEvent) : JobWaiter :=
  { jw with notify := jw.notify || jw.matchesJobIDs event }

end JobWaiter

/-- A waiter with the rows of the jobs. -/
structure Waiting where
  waiter : JobWaiter
  children : String → JobRequest

namespace Waiting

/-- `GetJobRequest`, which may fail. -/
def getJobRequest (w : Waiting) (failing : String → Option String) (id : String) :
    Except String JobRequest :=
  (failing id).elim (.ok (w.children id)) .error

inductive Action where
  /-- a job moves on -/
  | child (id : String) (req : JobRequest)
  | event (event : JobExecutionLifecycleEvent)
  /-- `RunAndWait` takes the signal -/
  | wake
  | poll (ctxErr : Option String) (failing : String → Option String)

/-- Polls and events in any order. A job that has ended stays ended. -/
def step (w : Waiting) : Action → Option Waiting
  | .child id req =>
    if (w.children id).jobState.isTerminal = true → req.jobState.isTerminal = true then
      some { w with children := Function.update w.children id req }
    else none
  | .event event => some { w with waiter := w.waiter.updateFromJobLifecycleEvent event }
  | .wake => some { w with waiter := { w.waiter with notify := false } }
  | .poll ctxErr failing =>
    some { w with waiter := (w.waiter.poll ctxErr (w.getJobRequest failing)).1 }

def system (awaitForkedTasks : List String) (vars : Variables) :
    TransitionSystem Waiting Action where
  init w := JobWaiter.newJobWaiter awaitForkedTasks vars = .ok w.waiter
  step := step

end Waiting

end Formicary

import Formicary.Model.JobExecutionRepository
import Formicary.Model.JobRequestRepository
import Formicary.Model.TaskSupervisor

/-! # The job execution state machine

The state a supervisor keeps in memory for the job it runs, next to the rows in the database, and
the operations that move both. -/

namespace Formicary

open RequestState JobExecutionRepository ErrorCodes

/-- The calls a supervised job makes to the statistics registry. -/
inductive StatsUpdate where
  | failed
  | paused
  | succeeded
  | pending (reverted : Bool)
  deriving DecidableEq, Repr

inductive Effect where
  | recorded (update : StatsUpdate)
  | published (state : RequestState)
  /-- the CANCELLED event of the cancel API has taken effect in `ExecutionCancelled` -/
  | cancelled
  deriving DecidableEq, Repr

/-- What the environment supplies to an operation: the clock, the delay and the cost computed from
it, and a generated key. -/
structure Clock where
  now : Time := 0
  delay : Time := 0
  cpuSecs : ℤ := 0
  userKey : String := ""
  deriving DecidableEq, Repr

/-- The request is not a cron-triggered one, and its notifications are left out. `tasks` are the
tasks of the execution in memory. -/
structure JobStateMachine where
  db : Database
  request : JobRequest
  execution : JobExecution
  tasks : List TaskExecution
  errorCode : Option ErrorCode
  effects : List Effect

namespace JobStateMachine

variable (m : JobStateMachine)

/-! ## Tasks in memory -/

def getTask (taskType : String) : Option TaskExecution :=
  m.tasks.find? fun t => t.taskType == taskType

def failedTask : Option TaskExecution :=
  m.tasks.find? fun t => !t.allowFailure && t.taskState.hasFailed

def getFailedTaskError : String × Option String :=
  match m.failedTask with
  | some t => (t.errorCode, some t.errorMessage)
  | none => ("", none)

def canRetry (jd : JobDefinition) : Bool :=
  let retried : ℤ := m.request.retried
  retried < jd.retry + 1 ||
    m.errorCode.any fun code => code.action == .retryJob && retried < code.retry + 1

def incrRetried : JobStateMachine :=
  { m with request := { m.request with retried := m.request.retried + 1 } }

/-! ## The job manager -/

/-- What `FinalizeJobRequestAndExecutionState` tells the registry, going by the request in
memory. -/
def finalizeStats (state : RequestState) : StatsUpdate :=
  if state.hasFailed then .failed else if state = paused then .paused else .succeeded

/-- A failed statement leaves the database alone; its error is returned. -/
def save (result : Except Error Database) : JobStateMachine × Option Error :=
  match result with
  | .ok db => ({ m with db := db }, none)
  | .error err => (m, some err)

def report (effect : Effect) : JobStateMachine :=
  { m with effects := effect :: m.effects }

/-- `sendJobExecutionLifecycleEvent`. -/
def publish : JobStateMachine :=
  m.report (.published m.execution.jobState)

/-- `FinalizeJobRequestAndExecutionState` of the manager: the statistics are updated whether or not
the rows were. -/
def finalize (oldState : RequestState) (delay : Time) (c : Clock) :
    JobStateMachine × Option Error :=
  let (m, err) := m.save (finalizeJobRequestAndExecutionState m.db
    m.execution.id oldState m.execution.jobState m.execution.errorMessage m.execution.errorCode
    c.cpuSecs delay m.request.retried m.request.pausedCount c.userKey c.now)
  (m.report (.recorded (finalizeStats m.request.jobState)), err)

/-- `UpdateJobRequestState` of the manager. -/
def updateJobRequestState (oldState newState : RequestState) (errorMessage errorCode : String)
    (delay : Time) (retried : ℕ) (reverted : Bool) (c : Clock) : JobStateMachine × Option Error :=
  let (m, err) := m.save (JobRequestRepository.updateJobState m.db m.request.id (some oldState)
    newState errorMessage errorCode delay retried m.request.pausedCount c.userKey c.now)
  (if newState = pending then m.report (.recorded (.pending reverted)) else m, err)

/-! ## Operations -/

def setJobStatusToExecuting (c : Clock) : JobStateMachine × Option Error :=
  match updateJobRequestAndExecutionState m.db m.execution.id ready executing "" c.now with
  | .ok db =>
    ({ m with
        db := db
        request := { m.request with jobState := executing }
        execution := { m.execution with jobState := executing } }.publish, none)
  | .error err => (m, some err)

def failedCode (cancelled : Bool) (errorCode : String) : String :=
  if cancelled then jobCancelled
  else if errorCode = "" then jobExecute else errorCode

def failedState (cancelled : Bool) : RequestState :=
  if cancelled then RequestState.cancelled else RequestState.failed

/-- What `failed` sets in memory. The request is FAILED even if the job is cancelled. -/
def markFailed (cancelled : Bool) (err errorCode : String) (now : Time) : JobStateMachine :=
  { m with
    request := { m.request with
      errorMessage := err
      errorCode := failedCode false errorCode
      jobState := RequestState.failed }
    execution := { m.execution with
      endedAt := some now
      jobState := failedState cancelled
      errorMessage := err
      errorCode := failedCode cancelled errorCode
      jobRequestID := m.request.id } }

/-- `failed`. When the rows cannot be finalized the request alone is updated. -/
def failed (oldState : RequestState) (cancelled : Bool) (err errorCode : String) (c : Clock) :
    JobStateMachine × Option Error :=
  let (m, saveErr) := (m.markFailed cancelled err errorCode c.now).finalize oldState c.delay c
  match saveErr with
  | none => (m, none)
  | some _ =>
    { m with
      request := { m.request with jobState := failedState cancelled } }.updateJobRequestState
        oldState (failedState cancelled) err (failedCode cancelled errorCode) c.delay 0 false c

def launchFailed (err : String) (c : Clock) : JobStateMachine × Option Error :=
  let (m, saveErr) := m.failed ready false err "" c
  (m.publish, saveErr)

/-- `ExecutionCancelled`, refused once the execution has ended. -/
def executionCancelled (errorCode errorMsg : String) (c : Clock) : JobStateMachine × Option Error :=
  if m.execution.jobState.isTerminal then
    (m, some ⟨.plain, "job cannot be cancelled because it's already in terminal state"⟩)
  else
    (m.report .cancelled).failed executing true errorMsg
      (if errorCode = "" then jobCancelled else errorCode) c

/-- `ExecutionFailed`, refused once the execution has ended. -/
def executionFailed (errorCode errorMsg : String) (c : Clock) : JobStateMachine × Option Error :=
  if m.execution.jobState.isTerminal then
    (m, some ⟨.plain, "job cannot be failed because it's already in terminal state"⟩)
  else
    let (m, saveErr) := m.failed executing false errorMsg
      (if errorCode = "" then jobExecute else errorCode) c
    (m.publish, saveErr)

/-- `ExecutionCompleted`, which does not ask whether the execution has ended. -/
def executionCompleted (c : Clock) : JobStateMachine × Option Error :=
  let (m, saveErr) := { m with
    request := { m.request with jobState := completed }
    execution := { m.execution with
      jobState := completed, errorCode := "", errorMessage := "",
      endedAt := some c.now } }.finalize executing 0 c
  (m.publish, saveErr)

def pauseJob (c : Clock) : JobStateMachine × Option Error :=
  if m.execution.jobState = executing then
    let (m, saveErr) := { m with
      request := { m.request with
        jobState := paused, pausedCount := m.request.pausedCount + 1,
        retried := m.request.retried + 1 }
      execution := { m.execution with
        jobState := paused, errorCode := ErrorCodes.pauseJob,
        endedAt := some c.now } }.finalize executing c.delay c
    (m.publish, saveErr)
  else (m, some ⟨.plain, "job cannot be paused because it's not executing"⟩)

/-- `RestartJobBackToPendingPaused`. A launched job was READY, so the state to go back to is
PENDING. -/
def restartJobBackToPendingPaused (err : String) (c : Clock) : JobStateMachine × Option Error :=
  let (m, saveErr) := { m with
    request := { m.request with
      pausedCount := m.request.pausedCount + 1,
      retried := m.request.retried + 1 } }.updateJobRequestState executing pending err "" c.delay
        (m.request.retried + 1) true c
  ({ m with request := { m.request with jobState := pending } }, saveErr)

/-- `RevertRequestToPendingPaused`, for a machine that has an execution: the execution is deleted
whether or not the request went back. -/
def revertRequestToPendingPaused (revertState : RequestState) (err : String) (c : Clock) :
    JobStateMachine × Option Error :=
  let (m, requestErr) := m.updateJobRequestState ready revertState err "" c.delay 0 false c
  let (m, executionErr) := { m with
    request := { m.request with jobState := revertState }
    execution := { m.execution with
      jobState := deleted, endedAt := some c.now } }.save (delete m.db m.execution.id c.now)
  (m, executionErr <|> requestErr)

/-- `UpdateFromJobLifecycleEvent`, for an event of the job's own request. -/
def updateFromJobLifecycleEvent (state : RequestState) (c : Clock) :
    JobStateMachine × Option Error :=
  if state.isTerminal then
    m.executionCancelled
      (if m.execution.errorCode ≠ "" then m.execution.errorCode else jobCancelled)
      (if m.execution.errorMessage ≠ "" then m.execution.errorMessage
        else "job cancelled by user") c
  else if state = paused then m.pauseJob c
  else (m, none)

end JobStateMachine

end Formicary

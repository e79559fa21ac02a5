import Formicary.Model.Database
import Formicary.Model.JobDefinition

/-! # The task supervisor

One run of one task: the replies of the ants, the retry loop around them, and the state the task
execution is left in. -/

namespace Formicary

open RequestState

/-- An ant's response to a task request, with the row of the error code repository that matches
it. A status outside the known constants behaves as `unknown`. -/
structure TaskResponse where
  status : RequestState
  exitCode : String
  exitMessage : String
  errorCode : String
  errorMessage : String
  matched : Option ErrorCode
  deriving DecidableEq, Repr

/-- What sending the request once brings back: a response, or one that could not be decoded. -/
inductive Reply where
  | response (resp : TaskResponse)
  | undecodable (err : String) (matched : Option ErrorCode)
  deriving DecidableEq, Repr

/-- What `tryExecuteTask` meets on a task that is EXECUTING. -/
inductive TaskAttempt where
  | unbuilt (err : String)
  /-- the completed result of an earlier execution is taken over -/
  | reused (exitCode exitMessage : String)
  /-- the ants answer in turn, and an invocation past the last reply fails; `fault` is the text
  for a task that is left without a final state -/
  | invoked (replies : List Reply) (fault : String)
  deriving DecidableEq, Repr

/-- The way a task run goes as far as its surroundings decide it. -/
inductive TaskRun where
  /-- the context is over, or there is no valid reservation for the task -/
  | unprepared (err : String)
  /-- the reserved ant is gone and no other one fits -/
  | antsUnavailable (err : String)
  /-- the task could not be saved as EXECUTING -/
  | notStarted (err : String)
  | started (attempt : TaskAttempt)
  deriving DecidableEq, Repr

/-- The text for a task that a run leaves without a final state and without an error. -/
def TaskRun.fault : TaskRun → String
  | .started (.invoked _ fault) => fault
  | _ => ""

namespace TaskSupervisor

def manualResponse (td : TaskDefinition) : TaskResponse where
  status := manualApprovalRequired
  exitCode := "AWAITING_APPROVAL"
  exitMessage := "Task '" ++ td.taskType ++ "' requires manual approval"
  errorCode := ""
  errorMessage := "Task '" ++ td.taskType ++ "' requires manual approval"
  matched := none

/-- The end of `invoke`: the routing table overrides the status and the error code. -/
def overrideResponse (td : TaskDefinition) (resp : TaskResponse) : TaskResponse :=
  match td.overrideStatusAndErrorCode resp.exitCode with
  | some (status, errorCode) =>
    { resp with
      status := status
      errorCode := if errorCode ≠ "" then errorCode else resp.errorCode }
  | none => resp

/-- `ErrorResponse`, to which the routing table is not applied. -/
def errorResponse (err : String) (matched : Option ErrorCode) : TaskResponse where
  status := failed
  exitCode := ""
  exitMessage := ""
  errorCode := ""
  errorMessage := err
  matched := matched

/-- `invoke` and `invokeManual`. -/
def invoke (td : TaskDefinition) (reply : Reply) : TaskResponse :=
  if td.method = .manual then manualResponse td
  else
    match reply with
    | .response resp => overrideResponse td resp
    | .undecodable err matched => errorResponse err matched

def defaultErrorCode (message : String) : String :=
  if Text.contains message "context deadline" then ErrorCodes.taskTimedOut
  else ErrorCodes.taskExecute

/-- A task execution with the error code the job's state machine remembers, the error of the last
call and the task type that was asked for. -/
structure Progress where
  task : TaskExecution
  errorCode : Option ErrorCode
  err : Option String
  taskType : String
  deriving DecidableEq, Repr

/-- `UpdateTaskFromResponse`. A wait for approval and a pause leave the error code of an earlier
reply in place. -/
def updateTaskFromResponse (p : Progress) (resp : TaskResponse) : Progress :=
  let task := { p.task with
    exitCode := resp.exitCode, exitMessage := resp.exitMessage, taskState := resp.status }
  if resp.status = completed then
    { p with task := { task with errorCode := "", errorMessage := "" }, err := none }
  else if resp.status = manualApprovalRequired ∨ resp.status = paused then
    { p with task := task, err := none }
  else
    let code := (resp.matched.map ErrorCode.errorCode).getD resp.errorCode
    { p with
      task := { task with
        errorCode := if code = "" then defaultErrorCode resp.errorMessage else code
        errorMessage := resp.errorMessage }
      errorCode := resp.matched
      err := some ("[tsm] ant failed to execute task '" ++ p.taskType ++ "' due to '" ++
        resp.errorMessage ++ "'") }

/-- `CanRetry` of the task state machine. -/
def canRetry (td : TaskDefinition) (errorCode : Option ErrorCode) (retried : ℤ) : Bool :=
  retried < td.retry + 1 ||
    errorCode.any fun code => code.action == .retryTask && retried < code.retry + 1

/-- The loop of `tryExecuteTask`, whose own error is shadowed and only shows in the task. -/
def tryReplies (td : TaskDefinition) (p : Progress) (retried : ℤ) : List Reply → Progress
  | [] => p
  | reply :: replies =>
    let resp := invoke td reply
    let next := updateTaskFromResponse p resp
    if resp.status ≠ executing ∧
        (next.err.isNone ∨ retried ≥ td.retry ∨ resp.status = fatal) then next
    else if canRetry td next.errorCode (retried + 1) ∨ resp.status = executing then
      tryReplies td next (retried + 1) replies
    else next

def tryExecuteTask (td : TaskDefinition) (p : Progress) (attempt : TaskAttempt) : Progress :=
  if td.isExcept then
    { p with
      task := { p.task with
        taskState := completed
        exitCode := "SKIPPED"
        exitMessage := "Skipped task due to except flag" }
      err := none }
  else
    match attempt with
    | .unbuilt err =>
      { p with
        err := some ("failed to build request for '" ++ td.taskType ++ "' due to " ++ err) }
    | .reused exitCode exitMessage =>
      updateTaskFromResponse p ⟨completed, exitCode, exitMessage, "", "", none⟩
    | .invoked replies _ => { tryReplies td p 0 replies with err := none }

/-- `PrepareExecution`, `SetTaskToExecuting` and `tryExecuteTask`. -/
def prepareAndTry (td : TaskDefinition) (p : Progress) : TaskRun → Progress
  | .unprepared err =>
    { p with err := some ("failed to prepare task for execution due to " ++ err) }
  | .antsUnavailable err =>
    { p with
      task := { p.task with
        taskState := failed, errorMessage := err, errorCode := ErrorCodes.antsUnavailable }
      err := some ("failed to prepare task for execution due to failed to validate ant " ++
        "reservation for task '" ++ p.taskType ++ "'  due to " ++ err) }
  | .notStarted err => { p with task := { p.task with taskState := executing }, err := some err }
  | .started attempt =>
    tryExecuteTask td { p with task := { p.task with taskState := executing } } attempt

def setFailed (task : TaskExecution) (err : String) : TaskExecution :=
  { task with
    taskState := failed
    errorCode := if task.errorCode = "" then defaultErrorCode err else task.errorCode
    errorMessage := err }

/-- The first half of the deferred function of `execute`. -/
def ensureFinal (p : Progress) (fault : String) : Progress :=
  if p.task.taskState.canFinalize then p
  else { p with task := setFailed p.task (p.err.getD fault), err := some (p.err.getD fault) }

/-- `FinalizeTaskState`, as far as the task itself is concerned. -/
def finalizeTaskState (task : TaskExecution) (now : Time) : TaskExecution :=
  { task with
    errorCode := if task.taskState = completed then "" else task.errorCode
    errorMessage := if task.taskState = completed then "" else task.errorMessage
    endedAt := some now }

def execute (td : TaskDefinition) (p : Progress) (run : TaskRun) (now : Time) : Progress :=
  if p.task.taskState = completed then { p with err := none }
  else
    let q := ensureFinal (prepareAndTry td p run) run.fault
    { q with task := finalizeTaskState q.task now }

end TaskSupervisor

end Formicary

import Formicary.Model.JobDefinition
import Formicary.Model.JobExecutionRepository
import Formicary.Model.JobRequestRepository

/-! # The job launcher

What is loaded for a request whose launch event arrives, and which tasks of the job are then sent to
an ant. -/

namespace Formicary

open RequestState

/-- `DoesRequireFullRestart`, for a definition with the given `hard_reset_after_retries`. -/
def doesRequireFullRestart (hardResetAfterRetries : ℤ) (req : JobRequest) : Bool :=
  if req.hardRestart then true
  else
    decide (hardResetAfterRetries > 0) && decide (req.retried > 0) &&
      (req.retried : ℤ) % (hardResetAfterRetries + 1) == 0

/-- `CanReusePreviousResult`, given the task of the same type in the request's last execution. -/
def canReusePreviousResult (hardResetAfterRetries : ℤ) (req : JobRequest)
    (lastTaskExecution : Option TaskExecution) : Bool :=
  !doesRequireFullRestart hardResetAfterRetries req &&
    lastTaskExecution.any fun t => t.taskState == completed

@[simp] theorem canReusePreviousResult_of_hardRestart {hardResetAfterRetries : ℤ}
    {req : JobRequest} {lastTaskExecution : Option TaskExecution} (h : req.hardRestart = true) :
    canReusePreviousResult hardResetAfterRetries req lastTaskExecution = false := by
  simp [canReusePreviousResult, doesRequireFullRestart, h]

/-- `GetTask`, by the type of the task. -/
def JobExecutionRepository.LoadedExecution.getTask (loaded : LoadedExecution) (taskType : String) :
    Option TaskExecution :=
  loaded.tasks.find? fun t => t.taskType == taskType

namespace JobLauncher

open JobExecutionRepository

/-- What the state machine of a job holds when its supervisor starts. -/
structure JobLaunch where
  request : JobRequest
  execution : LoadedExecution
  lastExecution : Option LoadedExecution
  deriving DecidableEq, Repr

/-- A request that cannot be read is left alone. After a `JobRequeueError` it is put back, and after
any other error it is marked FAILED. -/
inductive LaunchError where
  | unread (message : String)
  | requeue (message : String)
  | failed (message : String)
  deriving DecidableEq, Repr

/-- An execution loaded for its results; an error is dropped. -/
def loadLast (db : Database) (id : Option String) (now : Time) :
    Option LoadedExecution × Database :=
  match id with
  | none => (none, db)
  | some id =>
    match get db id now with
    | .ok (loaded, db) => (some loaded, db)
    | .error _ => (none, db)

/-- `PrepareLaunch`. The error of `Validate`, the task types of the definition and those with a
reservation are given. -/
def prepareLaunch (db : Database) (request : JobRequest) (jobExecutionID : String)
    (validateError : Option String) (tasks reservations : List String) (now : Time) :
    Except LaunchError JobLaunch × Database :=
  match validateError with
  | some err => (.error (.failed err), db)
  | none =>
    if jobExecutionID = "" then
      (.error (.failed "job-execution-id is not specified for prepare launch"), db)
    else if reservations.length ≠ tasks.length then
      (.error (.failed ("expected ant allocations " ++ toString reservations.length ++
        " to match tasks count " ++ toString tasks.length)), db)
    else
      match tasks.find? fun taskType => !reservations.contains taskType with
      | some taskType =>
        (.error (.requeue ("no ant reservations found for the task '" ++ taskType ++
          "', total=" ++ toString reservations.length)), db)
      | none =>
        match get db jobExecutionID now with
        | .error err => (.error (.failed err.message), db)
        | .ok (loaded, db) =>
          if request.jobExecutionID ≠ some jobExecutionID then
            (.error (.failed ("mismatched job-execution-id '" ++ jobExecutionID ++
              "' but in request '" ++ request.jobExecutionID.getD "" ++ "'")), db)
          else
            let (last, db) := loadLast db request.lastJobExecutionID now
            if request.jobState ≠ ready ∨ loaded.execution.jobState ≠ ready then
              (.error (.failed ("expected READY state but job request was status " ++
                request.jobState.name ++ " and job-execution was state " ++
                loaded.execution.jobState.name)), db)
            else (.ok ⟨request, loaded, last⟩, db)

/-- The execution that `PrepareLaunch` has set by the time it fails. -/
def loadedExecution (db : Database) (jobExecutionID : String) (validateError : Option String)
    (tasks reservations : List String) (now : Time) : Option LoadedExecution :=
  if validateError.isSome ∨ jobExecutionID = "" ∨ reservations.length ≠ tasks.length ∨
      (tasks.any fun taskType => !reservations.contains taskType) then none
  else
    match get db jobExecutionID now with
    | .ok (loaded, _) => some loaded
    | .error _ => none

/-- `launchJob`, up to the start of the supervisor. -/
def launchJob (db : Database) (requestID jobExecutionID : String) (validateError : Option String)
    (tasks reservations : List String) (now : Time) : Except LaunchError JobLaunch × Database :=
  match JobRequestRepository.get db (QueryContext.newQueryContext none) requestID with
  | .error err => (.error (.unread err.message), db)
  | .ok request =>
    prepareLaunch db request jobExecutionID validateError tasks reservations now

/-- Whether a task is sent to an ant when the job comes to it: it is not completed in the execution,
neither skipped nor manual, and no earlier result is taken over. -/
def JobLaunch.sendsToAnt (launch : JobLaunch) (hardResetAfterRetries : ℤ) (td : TaskDefinition) :
    Bool :=
  !((launch.execution.getTask td.taskType).any fun t => t.taskState == completed) &&
    !td.isExcept && td.method != .manual &&
    !canReusePreviousResult hardResetAfterRetries launch.request
      (launch.lastExecution.bind fun last => last.getTask td.taskType)

/-- What a task leaves to the job. -/
structure TaskResult (Context Artifact : Type) where
  exitCode : String
  contexts : List Context
  artifacts : List Artifact

section Results

variable {Context Artifact : Type} (contexts : TaskExecution → List Context)
  (artifacts : TaskExecution → List Artifact)

def resultOf (t : TaskExecution) : TaskResult Context Artifact :=
  ⟨t.exitCode, contexts t, artifacts t⟩

-- `GetParsedValue` and the encoding of the value again, and whether `UpdateArtifact` succeeds
variable (reencode : Context → Option Context) (saves : Artifact → Bool)

/-- `BuildTaskResponseFromPreviousResult`, and the update of the new task from that response. -/
def takenOver (t : TaskExecution) : TaskResult Context Artifact :=
  ⟨t.exitCode, (contexts t).filterMap reencode, (artifacts t).filter saves⟩

def completedTask? (loaded : LoadedExecution) (taskType : String) : Option TaskExecution :=
  (loaded.getTask taskType).filter fun t => t.taskState == completed

/-- The earlier result that the job goes on with when it comes to a task. -/
def JobLaunch.continuesWith (launch : JobLaunch) (hardResetAfterRetries : ℤ) (td : TaskDefinition) :
    Option (TaskResult Context Artifact) :=
  match completedTask? launch.execution td.taskType with
  | some t => some (resultOf contexts artifacts t)
  | none =>
    let last := launch.lastExecution.bind fun last => last.getTask td.taskType
    if canReusePreviousResult hardResetAfterRetries launch.request last then
      last.map (takenOver contexts artifacts reencode saves)
    else none

end Results

end JobLauncher

end Formicary

import Formicary.Model.JobStateMachine
import Formicary.Model.JobStatsRegistry
import Formicary.Model.Lifecycle

/-! # The job manager and its statistics

The operations that start, end and interrupt the runs of requests, each with the calls it makes to
the statistics registry. -/

namespace Formicary

open RequestState JobRequestRepository JobExecutionRepository Lifecycle

/-- What a supervisor has in memory of the job it runs. -/
structure SupervisedJob where
  request : JobRequest
  execution : JobExecution
  deriving DecidableEq, Repr

structure JobManager where
  db : Database
  stats : JobStatsRegistry
  supervisors : List SupervisedJob
  events : List (String × RequestState)

namespace JobManager

def new : JobManager := ⟨Database.empty, JobStatsRegistry.new, [], []⟩

variable (s : JobManager)

/-! ## State machines -/

/-- The call to the registry that an effect stands for: an execution ends under its own summary,
and a request goes back to the queue under that of the request. -/
def record (m : JobStateMachine) (effect : Effect) (stats : JobStatsRegistry) : JobStatsRegistry :=
  match effect with
  | .recorded .failed => stats.failed m.execution.summary
  | .recorded .paused => stats.paused m.execution.summary
  | .recorded .succeeded => stats.succeeded m.execution.summary
  | .recorded (.pending reverted) => stats.pending m.request.summary reverted
  | .published _ | .cancelled => stats

def machine (request : JobRequest) (execution : JobExecution) : JobStateMachine :=
  ⟨s.db, request, execution, [], none, []⟩

/-- What the operation leaves in the database and in the registry. -/
def absorb (m : JobStateMachine) : JobManager :=
  { s with db := m.db, stats := m.effects.foldr (record m) s.stats }

/-! ## Submission -/

/-- The row that `SaveJobRequest` writes. -/
def pendingRequest (req : JobRequest) (now : Time) : JobRequest :=
  { req with
    jobState := pending
    jobExecutionID := none
    errorCode := ""
    errorMessage := ""
    scheduleAttempts := 0
    retried := 0
    updatedAt := now }

/-- `SaveJobRequest`, of a request that has been given its id. -/
def saveJobRequest (req : JobRequest) (now : Time) : Option JobManager :=
  if req.id = "" then none
  else
    (s.db.requests.insert? (pendingRequest req now)).map fun requests =>
      { s with
        db := { s.db with requests := requests }
        stats := s.stats.pending (pendingRequest req now).summary false }

/-! ## Scheduling -/

/-- `ScheduleFailed` before there is an execution: nothing is reported. -/
def scheduleFailed (req : JobRequest) (err errorCode : String) (c : Clock) : JobManager :=
  { s with
    db := commit s.db (updateJobState s.db req.id
      (some (revertState req)) failed err errorCode c.delay 0 req.pausedCount c.userKey
      c.now) }

/-- The first half of `CreateJobExecution`: the execution to run, which is already counted as
started. An execution that has not ended is taken up again. -/
def startJobExecution (req : JobRequest) (freshID : String) (now : Time) :
    JobManager × Except Error JobExecution :=
  let (old, db) := lookupExecution s.db req now
  match old.filter fun e => !e.jobState.isTerminal with
  | none =>
    let execution := newJobExecution req freshID now
    match save db execution with
    | .ok db =>
      ({ s with db := db, stats := s.stats.started execution.summary now }, .ok execution)
    | .error err => ({ s with db := db }, .error err)
  | some e =>
    let execution := { e with jobRequestID := req.id }
    -- counted before the row is reset, so also when that fails
    let s := { s with db := db, stats := s.stats.started execution.summary now }
    match resetStateToReady db execution.id now with
    | .ok db => ({ s with db := db }, .ok execution)
    | .error err => (s, .error err)

/-- `CreateJobExecution` and what the scheduler does with its errors. -/
def createJobExecution (req : JobRequest) (freshID : String) (sent : Bool) (c : Clock) :
    JobManager :=
  match s.startJobExecution req freshID c.now with
  | (s, .error err) => s.scheduleFailed req err.message ErrorCodes.jobExecute c
  | (s, .ok execution) =>
    match setReadyToExecute s.db req.id execution.id req.lastJobExecutionID c.now with
    | .error err =>
      s.absorb ((s.machine req execution).failed (revertState req) false err.message
        ErrorCodes.jobExecute c).1
    | .ok db =>
      let s := { s with db := db }
      if sent then s
      else
        let request := { req with jobExecutionID := some execution.id, jobState := ready }
        s.absorb ((s.machine request execution).revertRequestToPendingPaused
          (revertState req) "failed to send launch event" c).1

/-! ## Launching and supervising -/

/-- `PrepareLaunch`: a supervisor starts on a READY request and its READY execution. -/
def prepareLaunch (id : String) (now : Time) : Option JobManager :=
  match s.db.requests.find? id with
  | none => none
  | some req =>
    match lookupExecution s.db req now with
    | (none, _) => none
    | (some execution, db) =>
      if req.jobState = ready ∧ execution.jobState = ready then
        some { s with db := db, supervisors := ⟨req, execution⟩ :: s.supervisors }
      else none

/-- `LaunchFailed` of a launcher whose checks fail before it has loaded the execution. -/
def launchFailed (req : JobRequest) (err : String) (c : Clock) : JobManager :=
  { s with
    db := commit s.db (updateJobState s.db req.id (some ready)
      failed err ErrorCodes.jobExecute c.delay 0 req.pausedCount c.userKey c.now) }

/-- What a supervisor does to its job. -/
inductive Operation where
  | execute
  | complete
  | fail (errorCode errorMsg : String)
  | pause
  | requireApproval (taskType : String)
  /-- a lifecycle event published by the cancel or pause call arrives -/
  | event (state : RequestState)
  deriving DecidableEq, Repr

def Operation.perform (m : JobStateMachine) (c : Clock) : Operation → JobStateMachine
  | execute =>
    match m.setJobStatusToExecuting c with
    | (m, none) => m
    | (m, some err) =>
      (m.launchFailed ("failed to set job-execution state to EXECUTING due to " ++ err.message) c).1
  | complete => (m.executionCompleted c).1
  | fail errorCode errorMsg => (m.executionFailed errorCode errorMsg c).1
  | pause => (m.pauseJob c).1
  | requireApproval taskType =>
    (m.save (updateJobRequestAndExecutionState m.db m.execution.id
      executing manualApprovalRequired taskType c.now)).1
  | event state => (m.updateFromJobLifecycleEvent state c).1

def supervise (i : ℕ) (job : SupervisedJob) (op : Operation) (c : Clock) : JobManager :=
  let m := op.perform (s.machine job.request job.execution) c
  { s.absorb m with supervisors := s.supervisors.set i ⟨m.request, m.execution⟩ }

/-! ## Calls of users -/

/-- `CancelJobRequest`: the registry is told first, whatever state the request is in. -/
def cancelJobRequest (qc : QueryContext) (id : String) (now : Time) : JobManager :=
  match get s.db qc id with
  | .error _ => s
  | .ok req =>
    let s := { s with stats := s.stats.cancelled req.summary }
    if req.jobState = pending ∨ req.jobState = paused ∨ req.jobState = manualApprovalRequired then
      { s with db := commit s.db (cancel s.db qc id now) }
    else { s with events := (req.id, cancelled) :: s.events }

/-- `overrideCancelRequest`, a second after the cancel event. -/
def overrideCancelRequest (qc : QueryContext) (id : String) (now : Time) : JobManager :=
  { s with db := commit s.db (cancel s.db qc id now) }

def pauseJobRequest (qc : QueryContext) (id : String) : JobManager :=
  match get s.db qc id with
  | .error _ => s
  | .ok req =>
    if req.jobState = executing then
      { s with
        stats := s.stats.cancelled req.summary
        events := (req.id, paused) :: s.events }
    else s

/-! ## Steps -/

inductive Action where
  | saveJobRequest (req : JobRequest) (now : Time)
  /-- the scheduler starts a request, and the launch event is sent or cannot be sent -/
  | schedule (id freshID : String) (sent : Bool) (c : Clock)
  | scheduleFailed (id err errorCode : String) (c : Clock)
  | launch (id : String) (now : Time)
  | launchFailed (id err : String) (c : Clock)
  | supervise (i : ℕ) (op : Operation) (c : Clock)
  | cancelJobRequest (qc : QueryContext) (id : String) (now : Time)
  | overrideCancelRequest (qc : QueryContext) (id : String) (now : Time)
  | pauseJobRequest (qc : QueryContext) (id : String)
  /-- the votes approve or reject the task a request waits for -/
  | approve (qc : QueryContext) (id taskType taskExecutionID approvedBy comments : String)
      (now : Time)
  | reject (qc : QueryContext)
      (id taskType taskExecutionID rejectedBy comments userKey : String) (now : Time)
  | requeueOrphanRequests (staleInterval now : Time)

def inState (id : String) (states : List RequestState) : Option JobRequest :=
  (s.db.requests.find? id).filter fun req => states.contains req.jobState

def step : Action → Option JobManager
  | .saveJobRequest req now => s.saveJobRequest req now
  | .schedule id freshID sent c =>
    -- generated ids are new
    if freshID ≠ "" ∧ s.db.executions.find? freshID = none then
      (s.inState id [pending, paused]).map fun req => s.createJobExecution req freshID sent c
    else none
  | .scheduleFailed id err errorCode c =>
    (s.inState id [pending, paused]).map fun req => s.scheduleFailed req err errorCode c
  | .launch id now => s.prepareLaunch id now
  | .launchFailed id err c => (s.inState id [ready]).map fun req => s.launchFailed req err c
  | .supervise i op c =>
    match s.supervisors[i]? with
    | none => none
    | some job =>
      match op with
      | .event state =>
        if (job.request.id, state) ∈ s.events then some (s.supervise i job op c) else none
      | _ => some (s.supervise i job op c)
  | .cancelJobRequest qc id now => some (s.cancelJobRequest qc id now)
  | .overrideCancelRequest qc id now =>
    if (id, cancelled) ∈ s.events then some (s.overrideCancelRequest qc id now) else none
  | .pauseJobRequest qc id => some (s.pauseJobRequest qc id)
  | .approve qc id taskType taskExecutionID approvedBy comments now =>
    (s.inState id [manualApprovalRequired]).map fun req =>
      { s with
        db := Approval.finalizeApproval s.db qc req taskType taskExecutionID approvedBy comments
          now }
  | .reject qc id taskType taskExecutionID rejectedBy comments userKey now =>
    (s.inState id [manualApprovalRequired]).map fun req =>
      { s with
        db := Approval.finalizeRejection s.db qc req taskType taskExecutionID rejectedBy comments
          userKey now }
  | .requeueOrphanRequests staleInterval now =>
    some { s with db := requeueOrphanRequests s.db staleInterval now }

def system : TransitionSystem JobManager Action where
  init s := s = new
  step := step

end JobManager

end Formicary

import Formicary.Model.Database
import Formicary.Model.QueryContext

/-! # The job request repository

Each function is one statement or transaction of the repository: it returns the new database, or an
error and then leaves the database alone. -/

namespace Formicary.JobRequestRepository

open RequestState

variable (db : Database)

/-- Finds a request the caller may read. -/
def get (qc : QueryContext) (id : String) : Except Error JobRequest :=
  if id = "" then .error ⟨.validation, "id is not specified for job-request"⟩
  else
    match db.requests.find? id with
    | some req =>
      if qc.orgElseUserWhere true req.userID req.organizationID then .ok req
      else .error ⟨.notFound, "record not found"⟩
    | none => .error ⟨.notFound, "record not found"⟩

/-- Whether the row stands in the way of another with the key: the unique index on user keys looks
neither at the state of a row nor at its owner. -/
def holdsKey (userKey : String) (req : JobRequest) : Bool :=
  req.userKey == userKey

/-- The insert path of `Save`; a request without a key is given the generated one. -/
def save (qc : QueryContext) (req : JobRequest) (id userKey : String) (now : Time) :
    Except Error Database :=
  let row :=
    { req with
      id := id
      userID := qc.getUserID
      organizationID := qc.getOrganizationID
      jobState := pending
      userKey := if req.userKey = "" then userKey else req.userKey
      updatedAt := now }
  -- of several failed checks the last one is reported
  if req.jobDefinitionID = "" then
    .error ⟨.validation, "jobDefinitionID is not specified"⟩
  else if req.jobType = "" then
    .error ⟨.validation, "jobType is not specified"⟩
  else if db.requests.rows.any (holdsKey row.userKey) then
    .error ⟨.plain, "duplicate key"⟩
  else
    match db.requests.insert? row with
    | some requests => .ok { db with requests := requests }
    | none => .error ⟨.plain, "duplicate key"⟩

/-- The columns `UpdateJobState` writes besides the guard. -/
def updateJobStateColumns (newState : RequestState) (errorMessage errorCode : String)
    (scheduleDelay : Time) (retried pausedCount : ℕ) (userKey : String) (now : Time)
    (req : JobRequest) : JobRequest :=
  let waits := newState = pending ∨ newState = paused
  { req with
    jobState := newState
    errorMessage :=
      if errorMessage ≠ "" ∨ newState = completed then errorMessage else req.errorMessage
    errorCode := if errorMessage ≠ "" ∨ newState = completed then errorCode else req.errorCode
    userKey := if newState.isTerminal then userKey else req.userKey
    hardRestart := if newState = executing then false else req.hardRestart
    scheduledAt := if waits ∧ scheduleDelay > 0 then now + scheduleDelay else req.scheduledAt
    retried := if waits ∧ retried > 0 then retried else req.retried
    pausedCount := if waits ∧ pausedCount > 0 then pausedCount else req.pausedCount
    updatedAt := now }

/-- `UpdateJobState`. An empty old state, which skips the transition check, is `none`. -/
def updateJobState (id : String) (oldState : Option RequestState) (newState : RequestState)
    (errorMessage errorCode : String) (scheduleDelay : Time) (retried pausedCount : ℕ)
    (userKey : String) (now : Time) : Except Error Database :=
  let forbidden := match oldState with
    | some old => !old.canTransitionTo newState
    | none => false
  let selected := fun req : JobRequest =>
    req.id == id && match oldState with
      | some old => req.jobState == old
      | none => true
  if forbidden then
    .error ⟨.plain, "job " ++ id ++ " cannot transition from " ++
      (oldState.map name).getD "" ++ " to " ++ newState.name⟩
  else
    match db.requests.updateOne? selected
        (updateJobStateColumns newState errorMessage errorCode scheduleDelay retried pausedCount
          userKey now) (fun _ => rfl) with
    | some requests => .ok { db with requests := requests }
    | none =>
      .error ⟨.notFound, "failed to update request state to " ++ newState.name ++ " with id " ++ id⟩

/-- `SetReadyToExecute`: the scheduler hands a waiting request to the launcher. -/
def setReadyToExecute (id jobExecutionID : String) (lastJobExecutionID : Option String)
    (now : Time) : Except Error Database :=
  if id = "" then
    .error ⟨.validation, "id is not specified for request to set ready to execute"⟩
  else if jobExecutionID = "" then
    .error ⟨.validation, "job-execution-id is not specified for request to set ready to execute"⟩
  else
    match db.executions.find? jobExecutionID with
    | none =>
      .error ⟨.notFound, "failed to find job-execution for job-execution '" ++
        jobExecutionID ++ "'"⟩
    | some _ =>
      match db.requests.updateOne?
          (fun req => req.id == id && (req.jobState == pending || req.jobState == paused))
          (fun req =>
            { req with
              jobState := ready
              jobExecutionID := some jobExecutionID
              lastJobExecutionID := lastJobExecutionID
              updatedAt := now })
          (fun _ => rfl) with
      | some requests => .ok { db with requests := requests }
      | none =>
        match db.requests.find? id with
        | none => .error ⟨.notFound, "record not found"⟩
        | some old =>
          .error ⟨.notFound, "failed to mark job as READY because old status was " ++
            old.jobState.name ++ " for request-id " ++ id⟩

/-- The first half of `Cancel`: a request that cannot be read is no error and nothing is done;
one that has already ended is refused. -/
def cancelLoad (qc : QueryContext) (id : String) : Except Error (Option JobRequest) :=
  match get db qc id with
  | .error _ => .ok none
  | .ok req =>
    if req.jobState.isTerminal then
      .error ⟨.conflict, "request " ++ req.id ++ " is already in terminal state " ++
        req.jobState.name⟩
    else .ok (some req)

/-- The transaction of `Cancel`. The copy `req` was read before the transaction starts, so that
its execution reference may be out of date. -/
def cancelTransaction (qc : QueryContext) (req : JobRequest) (now : Time) : Except Error Database :=
  match db.requests.updateOne? (fun r => r.id == req.id && !terminalStates.contains r.jobState &&
        qc.orgElseUserWhere false r.userID r.organizationID)
      (fun r =>
        { r with
          jobState := cancelled
          errorCode := "ERR_JOB_CANCELLED"
          errorMessage := "cancelled by job request"
          updatedAt := now })
      (fun _ => rfl) with
  | none => .error ⟨.notFound, "failed to mark job-request as cancel with id " ++ req.id⟩
  | some requests =>
    match req.jobExecutionID with
    | none => .ok { db with requests := requests }
    | some execID =>
      -- the state of the execution is not looked at, and no row need match
      .ok { db with
        requests := requests
        executions := db.executions.update
          (fun e => e.id == execID && qc.orgElseUserWhere false e.userID e.organizationID)
          (fun e =>
            { e with
              jobState := cancelled
              errorMessage := "job request cancelled"
              errorCode := "ERR_JOB_CANCELLED"
              updatedAt := now
              cpuSecs := now - req.scheduledAt
              endedAt := some now })
          (fun _ => rfl) }

/-- `Cancel`, when nothing comes between its two halves. -/
def cancel (qc : QueryContext) (id : String) (now : Time) : Except Error Database :=
  match cancelLoad db qc id with
  | .error err => .error err
  | .ok none => .ok db
  | .ok (some req) => cancelTransaction db qc req now

/-- `Restart`: the request forgets its execution, whatever state that execution is in. -/
def restart (qc : QueryContext) (id : String) (hard : Bool) (newJobDefinitionID : String)
    (now : Time) : Except Error Database :=
  match db.requests.updateOne?
      (fun req => req.id == id && !notRestartableStates.contains req.jobState &&
        qc.rawScope req.userID req.organizationID)
      (fun req =>
        { req with
          jobState := pending
          lastJobExecutionID := req.jobExecutionID
          jobExecutionID := none
          errorCode := ""
          errorMessage := ""
          scheduleAttempts := 0
          retried := req.retried + 1
          hardRestart := hard
          scheduledAt := now
          updatedAt := now
          jobDefinitionID :=
            if newJobDefinitionID ≠ "" then newJobDefinitionID else req.jobDefinitionID })
      (fun _ => rfl) with
  | some requests => .ok { db with requests := requests }
  | none => .error ⟨.notFound, "failed to restart job-request with id " ++ id⟩

/-- `RequeueOrphanRequests`: every request that has been running without a sign of life for
longer than the interval goes back to the queue, with its execution reference. -/
def requeueOrphanRequests (staleInterval now : Time) : Database :=
  { db with
    requests := db.requests.update (fun req =>
        orphanStates.contains req.jobState && decide (req.updatedAt < now - staleInterval))
      (fun req => { req with jobState := pending, scheduledAt := now, updatedAt := now })
      (fun _ => rfl) }

/-- `IncrementScheduleAttempts`: a request that cannot be scheduled yet is put off. -/
def incrementScheduleAttempts (id : String) (scheduleSecs : Time) (decrPriority : ℤ)
    (errorMessage : String) (now : Time) : Except Error Database :=
  match db.requests.updateOne? (fun req => req.id == id) (fun req =>
        { req with
          scheduleAttempts := req.scheduleAttempts + 1
          scheduledAt := now + scheduleSecs
          jobPriority := req.jobPriority - decrPriority
          errorMessage := errorMessage
          updatedAt := now })
      (fun _ => rfl) with
  | some requests => .ok { db with requests := requests }
  | none => .error ⟨.notFound, "failed to update schedule_attempts for " ++ id⟩

/-- Whether `NextSchedulableJobsByTypes` may return the request: it waits and is due. Job types,
disabled definitions and the limit only narrow the selection. -/
def schedulable (now : Time) (req : JobRequest) : Bool :=
  (req.jobState == pending || req.jobState == paused) && decide (req.scheduledAt ≤ now)

end Formicary.JobRequestRepository

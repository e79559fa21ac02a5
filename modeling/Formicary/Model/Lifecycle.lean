import Formicary.Library.Transition
import Formicary.Model.Approval

/-! # The life of job requests and job executions

One scheduler, any number of launchers and supervisors, and the operations of users and of the
orphan reaper, all over one database. -/

namespace Formicary.Lifecycle

open RequestState JobRequestRepository JobExecutionRepository

/-- What the environment supplies to a statement: the clock, generated identifiers, and the
values that only travel through. -/
structure Input where
  now : Time := 0
  freshID : String := ""
  userKey : String := ""
  errorMessage : String := ""
  errorCode : String := ""
  delay : Time := 0
  retried : ℕ := 0
  pausedCount : ℕ := 0
  cpuSecs : ℤ := 0
  deriving DecidableEq, Repr

/-! ## The scheduler -/

/-- How far `CreateJobExecution` has come, and what follows when it fails. -/
inductive Phase where
  /-- the request is picked; validation and the resource checks come first -/
  | selected
  /-- the execution the request referred to has been looked up -/
  | found (old : Option JobExecution)
  /-- an execution has been inserted or reset to READY -/
  | saved (execution : JobExecution)
  /-- `ScheduleFailed` is about to mark the execution, if any, and the request FAILED -/
  | failing (execution : Option JobExecution)
  /-- the request has been marked READY; the launch event is sent next -/
  | marked (execution : JobExecution)
  /-- the launch event could not be sent: the request goes back -/
  | reverting (execution : JobExecution)
  /-- and then the execution is deleted -/
  | deleting (execution : JobExecution)
  deriving DecidableEq, Repr

/-- The scheduler's work on one request, of which it holds a copy. -/
structure Attempt where
  request : JobRequest
  phase : Phase
  deriving DecidableEq, Repr

/-- The database, the scheduler's batch and current attempt, and the copies of request rows that
callers have read and may still act on. -/
structure State where
  db : Database
  batch : List JobRequest
  current : Option Attempt
  copies : List JobRequest

def State.initial : State := ⟨Database.empty, [], none, []⟩

/-- The state `Validate` remembers for putting the request back. -/
def revertState (req : JobRequest) : RequestState :=
  if req.jobState = paused ∨ req.jobState = manualApprovalRequired then req.jobState else pending

/-! ## Launchers and supervisors -/

/-- The call sites of `FinalizeJobRequestAndExecutionState` outside the scheduler. -/
inductive Ending where
  | launchFailed
  | executionCompleted
  | executionFailed
  | executionCancelled
  | pauseJob
  deriving DecidableEq, Repr

def Ending.oldState : Ending → RequestState
  | launchFailed => ready
  | _ => executing

def Ending.newState : Ending → RequestState
  | launchFailed => failed
  | executionCompleted => completed
  | executionFailed => failed
  | executionCancelled => cancelled
  | pauseJob => paused

/-- The call sites of `UpdateJobRequestState` outside the scheduler: the fallback of `failed` when
the execution could not be finalized, and the two ways back to the queue. -/
inductive RequestUpdate where
  | launchFailed
  | executionFailed
  | executionCancelled
  | restartJobBackToPendingPaused
  | revertRequestToPendingPaused (revertState : RequestState)
  deriving DecidableEq, Repr

def RequestUpdate.oldState : RequestUpdate → RequestState
  | launchFailed => ready
  | executionFailed => executing
  | executionCancelled => executing
  | restartJobBackToPendingPaused => executing
  | revertRequestToPendingPaused _ => ready

def RequestUpdate.newState : RequestUpdate → RequestState
  | launchFailed => failed
  | executionFailed => failed
  | executionCancelled => cancelled
  | restartJobBackToPendingPaused => pending
  | revertRequestToPendingPaused revertState => revertState

/-! ## Actions -/

inductive Action where
  | submit (req : JobRequest)
  -- the scheduler
  | nextSchedulable (ids : List String) (now : Time)
  | pick
  | drop
  | postpone (secs : Time) (decrPriority : ℤ) (i : Input)
  | scheduleFailed
  | lookup (now : Time)
  | saveExecution (i : Input)
  | markReady (now : Time)
  | failExecution (i : Input)
  | failRequest (i : Input)
  | sendLaunchEvent (sent : Bool)
  | revertRequest (i : Input)
  | deleteExecution (now : Time)
  -- launchers and supervisors
  | setExecuting (execID : String) (now : Time)
  | requireApproval (execID taskType : String) (now : Time)
  | finalize (execID : String) (ending : Ending) (i : Input)
  | updateRequest (id : String) (u : RequestUpdate) (i : Input)
  -- callers and the orphan reaper
  | read (qc : QueryContext) (id : String)
  | cancel (qc : QueryContext) (req : JobRequest) (now : Time)
  | approve (qc : QueryContext) (req : JobRequest)
      (taskType taskExecutionID approvedBy comments : String) (now : Time)
  | reject (qc : QueryContext) (req : JobRequest)
      (taskType taskExecutionID rejectedBy comments userKey : String) (now : Time)
  | restart (qc : QueryContext) (id : String) (hard : Bool) (newJobDefinitionID : String)
      (now : Time)
  | requeueOrphans (staleInterval now : Time)

/-- A failed statement is rolled back and its error goes to the caller. -/
def commit (db : Database) (result : Except Error Database) : Database :=
  match result with
  | .ok db' => db'
  | .error _ => db

/-- `GetJobExecution` for the execution a request refers to, with the error dropped. -/
def lookupExecution (db : Database) (req : JobRequest) (now : Time) :
    Option JobExecution × Database :=
  match req.jobExecutionID with
  | none => (none, db)
  | some id =>
    match get db id now with
    | .ok (loaded, db') => (some loaded.execution, db')
    | .error _ => (none, db)

/-- The scheduler's own actions, on the attempt it is working on. -/
def scheduleStep (s : State) (a : Attempt) : Action → Option State
  | .drop =>
    match a.phase with
    | .selected => some { s with current := none }
    | _ => none
  | .postpone secs decrPriority i =>
    match a.phase with
    | .selected =>
      some { s with
        db := commit s.db (incrementScheduleAttempts s.db a.request.id
          secs decrPriority i.errorMessage i.now)
        current := none }
    | _ => none
  | .scheduleFailed =>
    match a.phase with
    | .selected => some { s with current := some { a with phase := .failing none } }
    | _ => none
  | .lookup now =>
    match a.phase with
    | .selected =>
      if a.request.jobState = pending ∨ a.request.jobState = paused then
        let (old, db) := lookupExecution s.db a.request now
        some { s with db := db, current := some { a with phase := .found old } }
      else some { s with current := some { a with phase := .failing none } }
    | _ => none
  | .saveExecution i =>
    match a.phase with
    | .found old =>
      let live := old.filter fun e => !e.jobState.isTerminal
      match live with
      | none =>
        let execution :=
          newJobExecution a.request i.freshID i.now
        if i.freshID = "" then none
        else
          match save s.db execution with
          | .ok db =>
            some { s with db := db, current := some { a with phase := .saved execution } }
          | .error _ => none
      | some e =>
        match resetStateToReady s.db e.id i.now with
        | .ok db => some { s with db := db, current := some { a with phase := .saved e } }
        | .error _ => some { s with current := some { a with phase := .failing none } }
    | _ => none
  | .markReady now =>
    match a.phase with
    | .saved e =>
      match setReadyToExecute s.db a.request.id e.id a.request.lastJobExecutionID now with
      | .ok db => some { s with db := db, current := some { a with phase := .marked e } }
      -- the execution that was just saved is left as it is
      | .error _ => some { s with current := some { a with phase := .failing (some e) } }
    | _ => none
  | .failExecution i =>
    match a.phase with
    | .failing (some e) =>
      match finalizeJobRequestAndExecutionState s.db e.id
          (revertState a.request) failed i.errorMessage i.errorCode i.cpuSecs i.delay i.retried
          i.pausedCount i.userKey i.now with
      | .ok db => some { s with db := db, current := none }
      | .error _ => some { s with current := some { a with phase := .failing none } }
    | _ => none
  | .failRequest i =>
    match a.phase with
    | .failing none =>
      some { s with
        db := commit s.db (updateJobState s.db a.request.id
          (some (revertState a.request)) failed i.errorMessage i.errorCode i.delay 0
          i.pausedCount i.userKey i.now)
        current := none }
    | _ => none
  | .sendLaunchEvent sent =>
    match a.phase with
    | .marked e =>
      if sent then some { s with current := none }
      else some { s with current := some { a with phase := .reverting e } }
    | _ => none
  | .revertRequest i =>
    match a.phase with
    | .reverting e =>
      some { s with
        db := commit s.db (updateJobState s.db a.request.id (some ready)
          (revertState a.request) i.errorMessage "" i.delay 0 i.pausedCount i.userKey i.now)
        current := some { a with phase := .deleting e } }
    | _ => none
  | .deleteExecution now =>
    match a.phase with
    | .deleting e =>
      some { s with
        db := commit s.db (delete s.db e.id now)
        current := none }
    | _ => none
  | _ => none

/-- What an action does; `none` where it cannot be taken. -/
def step (s : State) : Action → Option State
  | .submit req =>
    if req.id ≠ "" ∧ req.jobState = pending ∧ req.jobExecutionID = none then
      (s.db.requests.insert? req).map fun requests =>
        { s with db := { s.db with requests := requests } }
    else none
  | .nextSchedulable ids now =>
    if s.batch = [] ∧ s.current = none then
      some { s with
        batch := s.db.requests.rows.filter fun req =>
          ids.contains req.id && schedulable now req }
    else none
  | .pick =>
    match s.batch, s.current with
    | req :: rest, none => some { s with batch := rest, current := some ⟨req, .selected⟩ }
    | _, _ => none
  | .setExecuting execID now =>
    some { s with
      db := commit s.db (updateJobRequestAndExecutionState s.db execID ready executing "" now) }
  | .requireApproval execID taskType now =>
    some { s with
      db := commit s.db (updateJobRequestAndExecutionState s.db execID
        executing manualApprovalRequired taskType now) }
  | .finalize execID ending i =>
    some { s with
      db := commit s.db (finalizeJobRequestAndExecutionState s.db execID
        ending.oldState ending.newState i.errorMessage i.errorCode i.cpuSecs i.delay i.retried
        i.pausedCount i.userKey i.now) }
  | .updateRequest id u i =>
    some { s with
      db := commit s.db (updateJobState s.db id (some u.oldState)
        u.newState i.errorMessage i.errorCode i.delay i.retried i.pausedCount i.userKey i.now) }
  | .read qc id =>
    match get s.db qc id with
    | .ok req => some { s with copies := req :: s.copies }
    | .error _ => none
  | .cancel qc req now =>
    if req ∈ s.copies ∧ req.jobState.isTerminal = false then
      some { s with
        db := commit s.db (cancelTransaction s.db qc req now) }
    else none
  | .approve qc req taskType taskExecutionID approvedBy comments now =>
    if req ∈ s.copies then
      some { s with
        db := Approval.finalizeApproval s.db qc req taskType taskExecutionID approvedBy comments
          now }
    else none
  | .reject qc req taskType taskExecutionID rejectedBy comments userKey now =>
    if req ∈ s.copies then
      some { s with
        db := Approval.finalizeRejection s.db qc req taskType taskExecutionID rejectedBy
          comments userKey now }
    else none
  | .restart qc id hard newJobDefinitionID now =>
    some { s with
      db := commit s.db (restart s.db qc id hard newJobDefinitionID now) }
  | .requeueOrphans staleInterval now =>
    some { s with db := requeueOrphanRequests s.db staleInterval now }
  | action => s.current.bind fun a => scheduleStep s a action

/-- The system that starts with an empty database and an idle scheduler. -/
def system : TransitionSystem State Action where
  init s := s = State.initial
  step := step

end Formicary.Lifecycle

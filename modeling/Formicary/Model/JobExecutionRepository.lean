import Formicary.Model.Database
import Formicary.Model.QueryContext

/-! # The job execution repository

The statements that create, load, advance and retire job executions, and those that move a
request together with its execution. -/

namespace Formicary.JobExecutionRepository

open RequestState

variable (db : Database)

/-! ## Loading -/

/-- A job execution with the task executions loaded for it. -/
structure LoadedExecution where
  execution : JobExecution
  tasks : List TaskExecution
  deriving DecidableEq, Repr

def activeTasks (id : String) : List TaskExecution :=
  (db.tasks.rows.filter fun t => t.jobExecutionID == id && t.active).insertionSort
    fun a b => a.taskOrder ≤ b.taskOrder

/-- Among rows of one task type, the first of those updated last. -/
def latest (tasks : List TaskExecution) (taskType : String) : Option TaskExecution :=
  tasks.foldl (fun best t =>
    if t.taskType == taskType then
      match best with
      | none => some t
      | some prev => if prev.updatedAt < t.updatedAt then some t else best
    else best) none

def isLatest (tasks : List TaskExecution) (t : TaskExecution) : Bool :=
  (latest tasks t.taskType).map TaskExecution.id == some t.id

/-- `Get`. Active duplicates of a task type are healed on the way: only the row updated last is
kept, and the others are deactivated. -/
def get (id : String) (now : Time) : Except Error (LoadedExecution × Database) :=
  if id = "" then .error ⟨.validation, "id is not specified for job-execution"⟩
  else
    match db.executions.find? id with
    | none => .error ⟨.notFound, "record not found"⟩
    | some execution =>
      if execution.active then
        let tasks := activeTasks db id
        let stale := tasks.filter fun t => !isLatest tasks t
        .ok (⟨execution, tasks.filter (isLatest tasks)⟩,
          { db with
            tasks := db.tasks.update (fun t => stale.any fun s => s.id == t.id)
              (fun t => { t with active := false, updatedAt := now }) (fun _ => rfl) })
      else .error ⟨.notFound, "record not found"⟩

/-! ## Creating and retiring executions -/

/-- `NewJobExecution`: a fresh execution of the request in READY. -/
def newJobExecution (req : JobRequest) (id : String) (now : Time) : JobExecution where
  id := id
  jobRequestID := req.id
  jobType := req.jobType
  jobVersion := req.jobVersion
  userID := req.userID
  organizationID := req.organizationID
  jobState := ready
  startedAt := now
  updatedAt := now
  active := true

/-- The insert path of `Save`. -/
def save (execution : JobExecution) : Except Error Database :=
  match db.executions.insert? execution with
  | some executions => .ok { db with executions := executions }
  | none => .error ⟨.plain, "duplicate key"⟩

def resetStateToReady (id : String) (now : Time) : Except Error Database :=
  match db.executions.updateOne? (fun e => e.id == id && !terminalStates.contains e.jobState)
      (fun e => { e with jobState := ready, updatedAt := now }) (fun _ => rfl) with
  | some executions => .ok { db with executions := executions }
  | none =>
    .error ⟨.notFound, "failed to update job execution state to READY with id " ++ id⟩

/-- `Delete`: soft-deletes the execution and the task executions loaded with it. -/
def delete (id : String) (now : Time) : Except Error Database := do
  let (old, db) ← get db id now
  let tasks := db.tasks.update (fun t => t.active && old.tasks.any fun s => s.id == t.id)
    (fun t => { t with active := false, updatedAt := now }) (fun _ => rfl)
  match db.executions.updateOne? (fun e => e.id == id && e.active)
      (fun e => { e with active := false, updatedAt := now }) (fun _ => rfl) with
  | some executions => .ok { db with tasks := tasks, executions := executions }
  | none => .error ⟨.notFound, "failed to delete job execution with id " ++ id ++ ", rows 0"⟩

/-! ## Moving a request together with its execution -/

/-- The state of the request that refers to an execution, as error messages show it. -/
def dbState (id : String) : String :=
  ((db.requests.first? fun req => req.jobExecutionID == some id).map fun req =>
    req.jobState.name).getD ""

/-- Two guarded updates in one transaction: the request that refers to the execution and the
execution itself must both be in the old state, and the execution must not be finished. -/
def updateBoth (id : String) (oldState newState : RequestState)
    (setRequest : JobRequest → JobRequest) (hreq : ∀ r, (setRequest r).id = r.id)
    (setExecution : JobExecution → JobExecution) (hexec : ∀ e, (setExecution e).id = e.id)
    (requestError : String) : Except Error Database :=
  match db.requests.updateOne?
      (fun req => req.jobExecutionID == some id && req.jobState == oldState) setRequest hreq with
  | none => .error ⟨.notFound, requestError⟩
  | some requests =>
    match db.executions.updateOne?
        (fun e => e.id == id && e.jobState == oldState && !terminalStates.contains e.jobState)
        setExecution hexec with
    | none =>
      .error ⟨.notFound, "failed to update job execution state from " ++ oldState.name ++
        " to " ++ newState.name ++ " with id " ++ id⟩
    | some executions => .ok { db with requests := requests, executions := executions }

def finalizeJobRequestAndExecutionState (id : String) (oldState newState : RequestState)
    (errorMessage errorCode : String) (cpuSecs : ℤ) (scheduleDelay : Time)
    (retried pausedCount : ℕ) (userKey : String) (now : Time) : Except Error Database :=
  if newState.canFinalize then
    updateBoth db id oldState newState (fun req =>
        { req with
          jobState := newState
          errorMessage := errorMessage
          errorCode := errorCode
          retried := retried
          updatedAt := now
          pausedCount := if pausedCount > 0 then pausedCount else req.pausedCount
          userKey := if newState.isTerminal then userKey else req.userKey
          scheduledAt :=
            if newState = paused ∧ scheduleDelay > 0 then now + scheduleDelay
            else req.scheduledAt })
      (fun _ => rfl)
      (fun e =>
        { e with
          jobState := newState
          errorMessage := errorMessage
          errorCode := errorCode
          endedAt := some now
          cpuSecs := cpuSecs
          updatedAt := now })
      (fun _ => rfl)
      ("failed to update job request state from " ++ oldState.name ++ " to " ++ newState.name ++
        " -- db-state '" ++ dbState db id ++ "', rows " ++
        toString (db.requests.affected fun req =>
          req.jobExecutionID == some id && req.jobState == oldState))
  else .error ⟨.validation, "new state " ++ newState.name ++ " is not terminal"⟩

def updateJobRequestAndExecutionState (id : String) (oldState newState : RequestState)
    (currentTask : String) (now : Time) : Except Error Database :=
  if newState.isTerminal then
    .error ⟨.validation, "new state " ++ newState.name ++ " cannot be terminal"⟩
  else
    updateBoth db id oldState newState (fun req =>
        { req with
          jobState := newState
          updatedAt := now
          currentTask := if currentTask ≠ "" then currentTask else req.currentTask })
      (fun _ => rfl)
      (fun e =>
        { e with
          jobState := newState
          updatedAt := now
          currentTask := if currentTask ≠ "" then currentTask else e.currentTask })
      (fun _ => rfl)
      ("failed to update job request state with job_execution_id " ++ id ++ " from " ++
        oldState.name ++ " to " ++ newState.name ++ " because it has " ++ dbState db id ++ " state")

end Formicary.JobExecutionRepository

import Formicary.Model.Lifecycle

/-! # Writers of task executions

The statements of the execution repository that store, advance and retire task executions, beside
the healing of a load and the decisions of an approval. Contexts are left out. -/

namespace Formicary.TaskExecutions

open RequestState

variable (db : Database)

/-- gorm's `Save` under a condition, with the number of rows it reports. An update that finds no
row falls back to an insert; `replaced` is what the database reports for an insert that replaces
the row with the same key. -/
def gormSave (replaced : ℕ) (tasks : Table TaskExecution.id) (condition : TaskExecution → Bool)
    (task : TaskExecution) : Table TaskExecution.id × ℕ :=
  if tasks.rows.any fun t => t.id == task.id && condition t then (tasks.set task, 1)
  else
    match tasks.insert? task with
    | some tasks => (tasks, 1)
    | none => (tasks.set task, replaced)

def deactivate (p : TaskExecution → Bool) (now : Time) : Table TaskExecution.id :=
  db.tasks.update p (fun t => { t with active := false, updatedAt := now }) (fun t => .refl t.id)

def sameTask (task t : TaskExecution) : Bool :=
  t.jobExecutionID == task.jobExecutionID && t.taskType == task.taskType && t.active

/-- The task that is saved over a stored one. -/
def stamped (task : TaskExecution) (now : Time) : TaskExecution :=
  { task with
    updatedAt := now
    endedAt := if task.taskState.canFinalize then some now else task.endedAt
    active := true }

/-- `SaveTask`. A task without an id is new and gets `freshID`. -/
def saveTask (replaced : ℕ) (task : TaskExecution) (freshID contexts : String) (now : Time) :
    Except Error Database :=
  if task.taskType = "" then .error ⟨.validation, "taskType is not specified"⟩
  else if task.id = "" then
    let task := { task with id := freshID, updatedAt := now, active := true }
    match (deactivate db (sameTask task) now).insert? task with
    | some tasks => .ok { db with tasks := tasks }
    | none => .error ⟨.notFound, "duplicate key"⟩
  else
    let task := stamped task now
    let others := deactivate db (fun t => sameTask task t && t.id != task.id) now
    let (tasks, rows) :=
      gormSave replaced others (fun t => !terminalStates.contains t.taskState) task
    if rows = 1 then .ok { db with tasks := tasks }
    else
      .error ⟨.notFound, "failed to update task rows ID=" ++ task.id ++ " TaskType=" ++
        task.taskType ++ " Contexts=" ++ contexts ++ " TaskState=" ++ task.taskState.name ++
        " ExitCode=" ++ task.exitCode ++ " ErrorCode=" ++ task.errorCode⟩

def updateTaskState (id : String) (oldState newState : RequestState) (now : Time) :
    Except Error Database :=
  match db.tasks.updateOne?
      (fun t => t.id == id && t.taskState == oldState && !terminalStates.contains t.taskState)
      (fun t => { t with taskState := newState, updatedAt := now }) (fun _ => rfl) with
  | some tasks => .ok { db with tasks := tasks }
  | none =>
    .error ⟨.notFound, "failed to update task execution state to " ++ newState.name ++
      " with id " ++ id⟩

def deleteTask (id : String) (now : Time) : Except Error Database :=
  match db.tasks.updateOne? (fun t => t.id == id && t.active)
      (fun t => { t with active := false, updatedAt := now }) (fun t => .refl t.id) with
  | some tasks => .ok { db with tasks := tasks }
  | none => .error ⟨.notFound, "failed to delete task execution with id " ++ id ++ ", rows 0"⟩

inductive Operation where
  | saveTask (task : TaskExecution) (freshID contexts : String) (now : Time)
  | updateTaskState (id : String) (oldState newState : RequestState) (now : Time)
  | deleteTask (id : String) (now : Time)
  | get (id : String) (now : Time)
  | approve (qc : QueryContext) (req : JobRequest)
      (taskType taskExecutionID approvedBy comments : String) (now : Time)
  | reject (qc : QueryContext) (req : JobRequest)
      (taskType taskExecutionID rejectedBy comments userKey : String) (now : Time)
  /-- anything that happens to the other tables in between -/
  | elsewhere (db : Database)

def run (replaced : ℕ) : Operation → Database
  | .saveTask task freshID contexts now =>
    Lifecycle.commit db (saveTask db replaced task freshID contexts now)
  | .updateTaskState id oldState newState now =>
    Lifecycle.commit db (updateTaskState db id oldState newState now)
  | .deleteTask id now => Lifecycle.commit db (deleteTask db id now)
  | .get id now => Lifecycle.commit db ((JobExecutionRepository.get db id now).map Prod.snd)
  | .approve qc req taskType taskExecutionID approvedBy comments now =>
    Approval.finalizeApproval db qc req taskType taskExecutionID approvedBy comments now
  | .reject qc req taskType taskExecutionID rejectedBy comments userKey now =>
    Approval.finalizeRejection db qc req taskType taskExecutionID rejectedBy comments userKey now
  | .elsewhere other => { other with tasks := db.tasks }

def system (replaced : ℕ) : TransitionSystem Database Operation where
  init db := db = Database.empty
  step db op := some (run db replaced op)

end Formicary.TaskExecutions

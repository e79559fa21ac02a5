import Formicary.Library.Transition
import Formicary.Model.JobStateMachine

/-! # The job supervisor

`tryExecuteJob` and the recursion of `executeNextTask` as a machine that takes one step at a time,
so that lifecycle events and the rest of the queen can come in between. -/

namespace Formicary

open RequestState

/-- What the submission of a task meets: rendering its YAML, deleting the row of its earlier run
and saving the row of the new one may fail, and then comes the run itself. -/
structure TaskOutcome where
  renderError : Option String := none
  deleteError : Option String := none
  saveError : Option String := none
  id : String := ""
  run : TaskRun
  deriving DecidableEq, Repr

namespace JobStateMachine

variable (m : JobStateMachine)

/-- `NewTaskExecution`, with the order `AddTask` gives it. -/
def newTaskExecution (td : TaskDefinition) (id : String) (now : Time) : TaskExecution where
  id := id
  jobExecutionID := m.execution.id
  taskType := td.taskType
  taskState := ready
  allowFailure := td.allowFailure
  taskOrder :=
    match m.getTask td.taskType with
    | some old => old.taskOrder
    | none => m.tasks.foldl (fun order t => max order t.taskOrder) 0 + 1
  updatedAt := now
  active := true

/-- The list `AddTask` leaves: a task of the same type is not replaced. -/
def addTask (task : TaskExecution) : JobStateMachine :=
  if (m.getTask task.taskType).isNone then { m with tasks := m.tasks ++ [task] } else m

/-- A submitted task: its definition and its execution, if it got that far, and the error. -/
structure Submitted where
  machine : JobStateMachine
  task : Option (TaskDefinition × TaskExecution)
  err : Option String

def Submitted.errorCode (submitted : Submitted) : String :=
  match submitted.task with
  | some (_, te) => te.errorCode
  | none => ""

/-- The part of `submitTask` that makes a new run of a task. An error of an optional task is
dropped. -/
def runTask (taskType : String) (td : TaskDefinition) (outcome : TaskOutcome) (now : Time) :
    Submitted :=
  let task := m.newTaskExecution td outcome.id now
  match outcome.saveError with
  | some err =>
    ⟨m.addTask { task with taskState := .failed, errorMessage := err }, none, some err⟩
  | none =>
    let p := TaskSupervisor.execute td ⟨task, m.errorCode, none, taskType⟩ outcome.run now
    ⟨{ m.addTask p.task with errorCode := p.errorCode }, some (td, p.task),
      if td.allowFailure then none
      else p.err.map fun err =>
        "[js] failed to execute task for '" ++ taskType ++ "' due to " ++ err⟩

/-- `submitTask`. A task that is already completed is not run again, and any other earlier run of
it is removed first. -/
def submitTask (w : Workflow) (taskType : String) (outcome : TaskOutcome) (now : Time) :
    Submitted :=
  match w.getDynamicTask taskType, outcome.renderError with
  | .error err, _ => ⟨m, none, some err.message⟩
  | .ok _, some err => ⟨m, none, some err⟩
  | .ok td, none =>
    match m.getTask taskType with
    | none => m.runTask taskType td outcome now
    | some old =>
      if old.taskState = completed then ⟨m, some (td, old), none⟩
      else
        let m := { m with tasks := m.tasks.eraseP fun t => t.id == old.id }
        match outcome.deleteError with
        | some err => ⟨m, none, some ("failed to delete old task due to " ++ err)⟩
        | none => m.runTask taskType td outcome now

end JobStateMachine

/-! ## Routing -/

/-- What `executeNextTask` does once its task has run. -/
inductive Routing where
  | next (taskType : String)
  | waitForApproval
  | stop (errorCode : String) (err : Option String)
  deriving DecidableEq, Repr

namespace Routing

/-- The special actions a status can be mapped to. -/
def special (taskType : String) (td : TaskDefinition) (te : TaskExecution) : Routing :=
  let statusTarget := newRequestState (td.onExitCode.target te.taskState.name)
  let ending := " status=" ++ te.taskState.name ++ " exit=" ++ te.exitCode
  if statusTarget = restartJob.name then
    .stop ErrorCodes.restartJob (some ("restarting job after task " ++ taskType ++ ending))
  else if statusTarget = pauseJob.name ∨ statusTarget = paused.name then
    .stop ErrorCodes.pauseJob (some ("pausing job after task " ++ taskType ++ ending))
  else if statusTarget = fatal.name then
    .stop ErrorCodes.fatal (some ("fatal error in task " ++ taskType ++ ending))
  else if statusTarget = RequestState.waitForApproval.name then
    .stop ErrorCodes.manualApprovalRequired
      (some ("approval required after task " ++ taskType ++ ending))
  else if statusTarget = restartTask.name then
    .stop ErrorCodes.restartTask (some ("restarting task " ++ taskType ++ ending))
  else
    .stop ErrorCodes.invalidNextTask
      (some ("cannot find next task after " ++ taskType ++ ", unexpected task status=" ++
        te.taskState.name ++ ", exit-code: " ++ te.exitCode ++ ", error-code: " ++ te.errorCode))

/-- Where `executeNextTask` goes after a task that leads to no other task. -/
def last (taskType : String) (td : TaskDefinition) (te : TaskExecution) : Routing :=
  if te.taskState = failed ∧ td.allowFailure = false then
    .stop te.errorCode (some te.errorMessage)
  else if te.taskState = paused then .stop ErrorCodes.pauseJob (some te.errorMessage)
  else if !td.onExitCode.entries.isEmpty then special taskType td te
  else if te.taskState = completed ∨ td.allowFailure then .stop "" none
  else
    .stop te.errorCode (some ("last task failed after " ++ taskType ++ ", unknown task status=" ++
        te.taskState.name ++ ", exit=" ++ te.exitCode))

/-- Where `executeNextTask` goes after a task that was submitted without an error. -/
def of (jd : JobDefinition) (taskType : String) (td : TaskDefinition) (te : TaskExecution) :
    Routing :=
  if te.taskState = manualApprovalRequired then .waitForApproval
  else
    match jd.getNextTask td te.taskState te.exitCode with
    | some nextTaskDef => .next nextTaskDef.taskType
    | none => last taskType td te

end Routing

/-! ## The machine -/

/-- Where `tryExecuteJob` is. The optional text is its error so far. -/
inductive Location where
  | start
  /-- the head of the retry loop -/
  | attempt
  /-- the head of `executeNextTask` -/
  | enter (taskType : String)
  /-- `submitTask` is under way -/
  | running (taskType : String)
  /-- a task waits for approval, which is about to be saved -/
  | approval (taskType : String)
  /-- `executeNextTask` has returned -/
  | evaluate (err : Option String)
  /-- the delay before the next attempt -/
  | retry (err : String)
  /-- the retry loop is over -/
  | finish (err : Option String)
  /-- the always-run tasks that are still to be looked at after a failure -/
  | cleanup (taskTypes : List String) (err : String)
  /-- one of them is under way -/
  | cleaning (taskType : String) (taskTypes : List String) (err : String)
  | conclude (err : String)
  | returned (err : Option String)
  deriving DecidableEq, Repr

/-- The task whose end `executeNextTask` waits for. -/
def Location.inFlight : Location → Option String
  | .running taskType => some taskType
  | _ => none

/-- The state machine of the job, the local variables of `tryExecuteJob`, and where it is. -/
structure JobSupervisor where
  machine : JobStateMachine
  startTaskType : String
  task : Option String
  errorCode : String
  location : Location

namespace JobSupervisor

variable (w : Workflow) (s : JobSupervisor)

/-- The codes after which a job is not tried again. -/
def finalErrorCodes : List String :=
  [ErrorCodes.fatal, ErrorCodes.restartJob, ErrorCodes.pauseJob, ErrorCodes.manualApprovalRequired]

/-- The first task of an attempt. Once a task has been chosen it is kept for later attempts. -/
def firstTask : Except Error String :=
  let task :=
    if s.startTaskType ≠ "" then
      (w.stored.getTask s.startTaskType).map TaskDefinition.taskType
    else s.task
  match task with
  | some taskType => .ok taskType
  | none => w.stored.getFirstTask.map TaskDefinition.taskType

/-- What the error code of a failed job leads to. -/
def conclude (err : String) (c : Clock) : JobSupervisor :=
  if s.errorCode = ErrorCodes.restartJob then
    let (m, saveErr) := s.machine.restartJobBackToPendingPaused err c
    { s with machine := m, location := .returned (saveErr.map Error.message) }
  else if s.errorCode = ErrorCodes.pauseJob then
    let (m, saveErr) := s.machine.pauseJob c
    { s with machine := m, location := .returned (saveErr.map Error.message) }
  else if s.errorCode = ErrorCodes.manualApprovalRequired then
    { s with location := .returned none }
  else
    -- an error in saving the failure is only logged
    { s with
      machine := (s.machine.executionFailed s.errorCode err c).1
      location := .returned (some err) }

/-- The steps of `tryExecuteJob` other than the completion of a task. -/
def proceed (c : Clock) : Option JobSupervisor :=
  match s.location with
  | .start =>
    match s.machine.setJobStatusToExecuting c with
    | (m, none) =>
      some { s with
        machine := m, startTaskType := m.execution.currentTask, location := .attempt }
    | (m, some err) =>
      let (m, saveErr) := m.launchFailed
        ("failed to set job-execution state to EXECUTING due to " ++ err.message) c
      some { s with machine := m, location := .returned (saveErr.map Error.message) }
  | .attempt =>
    match s.firstTask w with
    | .ok taskType => some { s with task := some taskType, location := .enter taskType }
    | .error err => some { s with location := .finish (some err.message) }
  | .enter taskType =>
    -- a cancelled job stops here, without an error
    if s.machine.execution.jobState.isTerminal then
      some { s with errorCode := "", location := .evaluate none }
    else some { s with location := .running taskType }
  | .approval taskType =>
    match JobExecutionRepository.updateJobRequestAndExecutionState s.machine.db
        s.machine.execution.id executing manualApprovalRequired taskType c.now with
    | .ok db =>
      some { s with
        machine := { s.machine with db := db }
        errorCode := ErrorCodes.manualApprovalRequired
        location :=
          .evaluate (some ("job paused for manual approval of task: " ++ taskType)) }
    | .error err =>
      some { s with
        location :=
          .evaluate (some ("failed to set job to manual approval state: " ++ err.message)) }
  | .evaluate err =>
    let (errorCode, err) := match err with
      | none => s.machine.getFailedTaskError
      | some err => (s.errorCode, some err)
    match err with
    | none => some { s with errorCode := errorCode, location := .finish none }
    | some err =>
      if errorCode ∈ finalErrorCodes ∨ (s.machine.request.retried : ℤ) = w.stored.retry then
        some { s with errorCode := errorCode, location := .finish (some err) }
      else
        some { s with errorCode := errorCode, startTaskType := "", location := .retry err }
  | .retry err =>
    let m := s.machine.incrRetried
    some { s with
      machine := m
      location := if m.canRetry w.stored then .attempt else .finish (some err) }
  | .finish none =>
    let (m, saveErr) := s.machine.executionCompleted c
    some { s with machine := m, location := .returned (saveErr.map Error.message) }
  | .finish (some err) =>
    -- only a job that has already failed in memory still runs its always-run tasks
    if s.machine.request.jobState.isTerminal then
      some { s with
        location :=
          .cleanup (w.stored.getLastAlwaysRunTasks.map TaskDefinition.taskType) err }
    else some { s with location := .conclude err }
  | .cleanup [] err => some { s with location := .conclude err }
  | .cleanup (taskType :: taskTypes) err =>
    if (s.machine.getTask taskType).isSome then
      some { s with location := .cleanup taskTypes err }
    else some { s with location := .cleaning taskType taskTypes err }
  | .conclude err => some (s.conclude err c)
  | .running _ | .cleaning .. | .returned _ => none

/-- `executeNextTask` after its task. -/
def taskDone (taskType : String) (outcome : TaskOutcome) (c : Clock) : JobSupervisor :=
  let submitted := s.machine.submitTask w taskType outcome c.now
  let s := { s with
    machine := submitted.machine
    errorCode := submitted.errorCode }
  match submitted.err, submitted.task with
  | some err, _ => { s with location := .evaluate (some err) }
  | none, none => { s with location := .evaluate none }
  | none, some (td, te) =>
    match Routing.of w.stored taskType td te with
    | .waitForApproval => { s with location := .approval td.taskType }
    | .next next => { s with errorCode := "", location := .enter next }
    | .stop errorCode err => { s with errorCode := errorCode, location := .evaluate err }

/-- What `executeNextTask` returns, and the state machine that it leaves. -/
structure Returned where
  machine : JobStateMachine
  errorCode : String
  err : Option String

/-- The end of `executeNextTask` at a task that waits for approval. -/
def requireApproval (m : JobStateMachine) (taskType errorCode : String) (now : Time) : Returned :=
  match JobExecutionRepository.updateJobRequestAndExecutionState m.db m.execution.id executing
      manualApprovalRequired taskType now with
  | .ok db =>
    ⟨{ m with db := db }, ErrorCodes.manualApprovalRequired,
      some ("job paused for manual approval of task: " ++ taskType)⟩
  | .error err =>
    ⟨m, errorCode, some ("failed to set job to manual approval state: " ++ err.message)⟩

/-- `executeNextTask` from a task on, given for each task that it submits in turn the outcome of
every task: `none` as long as there are not enough of them. -/
def executeNextTask (m : JobStateMachine) (taskType : String) :
    List (String → TaskOutcome × Clock) → Option Returned
  | [] => if m.execution.jobState.isTerminal then some ⟨m, "", none⟩ else none
  | outcome :: outcomes =>
    if m.execution.jobState.isTerminal then some ⟨m, "", none⟩
    else
      let c := (outcome taskType).2
      let submitted := m.submitTask w taskType (outcome taskType).1 c.now
      match submitted.task, submitted.err with
      | some (td, te), none =>
        match Routing.of w.stored taskType td te with
        | .waitForApproval =>
          some (requireApproval submitted.machine td.taskType submitted.errorCode c.now)
        | .next next => executeNextTask submitted.machine next outcomes
        | .stop errorCode err => some ⟨submitted.machine, errorCode, err⟩
      | _, err => some ⟨submitted.machine, submitted.errorCode, err⟩

inductive Action where
  | proceed (c : Clock)
  | taskDone (outcome : TaskOutcome) (c : Clock)
  /-- a lifecycle event of the request that the cancel or pause API publishes is delivered -/
  | lifecycleEvent (state : RequestState) (c : Clock)
  | database (db : Database)

def step : Action → Option JobSupervisor
  | .proceed c => s.proceed w c
  | .taskDone outcome c =>
    match s.location with
    | .running taskType => some (s.taskDone w taskType outcome c)
    -- the result of an always-run task is not looked at
    | .cleaning taskType taskTypes err =>
      some { s with
        machine := (s.machine.submitTask w taskType outcome c.now).machine
        location := .cleanup taskTypes err }
    | _ => none
  | .lifecycleEvent state c =>
    if s.location ≠ .start ∧ (state = cancelled ∨ state = paused) then
      some { s with machine := (s.machine.updateFromJobLifecycleEvent state c).1 }
    else none
  | .database db => some { s with machine := { s.machine with db := db } }

/-- A supervisor starts on a READY request and its READY execution, with nothing reported yet. -/
structure Initial (s : JobSupervisor) : Prop where
  request : s.machine.request.jobState = ready
  execution : s.machine.execution.jobState = ready
  effects : s.machine.effects = []
  errorCode : s.machine.errorCode = none
  task : s.task = none
  location : s.location = .start

def system : TransitionSystem JobSupervisor Action where
  init := Initial
  step := step w

end JobSupervisor

end Formicary

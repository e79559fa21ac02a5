import Formicary.Model.ErrorCode
import Formicary.Model.QueryContext
import Formicary.Model.RequestState

/-! # Job definitions

Task definitions with their routing tables, the validation of a job definition, and the functions
that walk it: where a job starts, which task follows a task that ended, and what an exit code makes
of a reply. -/

namespace Formicary

/-- The `TaskMethod` constants, and any other string a definition may name. -/
inductive TaskMethod where
  | expireArtifacts
  | forkJob
  | awaitForkedJob
  | messaging
  | httpGet
  | httpPostForm
  | httpPostJSON
  | httpPutForm
  | httpPutJSON
  | httpDelete
  | webSocket
  | shell
  | docker
  | kubernetes
  | manual
  | fanOutJob
  | other (text : String)
  deriving DecidableEq, Repr

namespace TaskMethod

def name : TaskMethod → String
  | expireArtifacts => "EXPIRE_ARTIFACTS"
  | forkJob => "FORK_JOB"
  | awaitForkedJob => "AWAIT_FORKED_JOB"
  | messaging => "MESSAGING"
  | httpGet => "HTTP_GET"
  | httpPostForm => "HTTP_POST_FORM"
  | httpPostJSON => "HTTP_POST_JSON"
  | httpPutForm => "HTTP_PUT_FORM"
  | httpPutJSON => "HTTP_PUT_JSON"
  | httpDelete => "HTTP_DELETE"
  | webSocket => "WEBSOCKET"
  | shell => "SHELL"
  | docker => "DOCKER"
  | kubernetes => "KUBERNETES"
  | manual => "MANUAL"
  | fanOutJob => "FAN_OUT_JOB"
  | other text => text

def isValid : TaskMethod → Bool
  | other _ => false
  | _ => true

end TaskMethod

/-- `NewRequestState`: any text may serve as a state, in upper case. -/
def newRequestState (state : String) : String :=
  Text.toUpper state

/-! ## Routing tables -/

/-- A task's `on_exit_code` map, from statuses and exit codes to task types and special actions. -/
abbrev OnExitCode := AList fun _ : String => String

/-- Indexing the map: a missing key reads as the empty string. -/
def OnExitCode.target (onExitCode : OnExitCode) (key : String) : String :=
  (onExitCode.lookup key).getD ""

def OnExitCode.targets (onExitCode : OnExitCode) : List String :=
  onExitCode.entries.map Sigma.snd

/-- A task of a job definition. The fan-out configuration appears by the verdict of its own
check. -/
structure TaskDefinition where
  taskType : String
  method : TaskMethod
  description : String := ""
  hostNetwork : String := ""
  fanOut : Option (Except Error Unit) := none
  onExitCode : OnExitCode
  onCompleted : String
  onFailed : String := ""
  allowFailure : Bool := false
  alwaysRun : Bool := false
  except : String := ""
  retry : ℤ := 0
  tags : List String := []

namespace TaskDefinition

open RequestState

def hasNext (td : TaskDefinition) : Bool :=
  !td.onExitCode.entries.isEmpty || td.onCompleted ≠ "" || td.onFailed ≠ ""

def isExcept (td : TaskDefinition) : Bool :=
  Text.contains td.except "true"

/-- `Validate`, which also fills in the method. -/
def validate (td : TaskDefinition) : Except Error TaskDefinition :=
  let method := if td.method = .other "" then .kubernetes else td.method
  if td.taskType = "" then .error ⟨.plain, "taskType is not specified"⟩
  else if !method.isValid then
    .error ⟨.plain, "method " ++ method.name ++ " is not supported for " ++ td.taskType⟩
  else if td.taskType.utf8ByteSize > 100 then .error ⟨.plain, "taskType is too big"⟩
  else if td.description.utf8ByteSize > 500 then .error ⟨.plain, "description is too big"⟩
  else if td.hostNetwork.utf8ByteSize > 100 then .error ⟨.plain, "host network is too big"⟩
  else
    match td.fanOut with
    | none => .ok { td with method := method }
    | some (.error err) => .error err
    | some (.ok _) => .ok { td with method := .fanOutJob }

/-- Sets `on_completed` and `on_failed` in the routing table. -/
def addOutcomes (td : TaskDefinition) : TaskDefinition :=
  let table := if td.onCompleted ≠ "" then td.onExitCode.insert completed.name td.onCompleted
    else td.onExitCode
  { td with
    onExitCode := if td.onFailed ≠ "" then table.insert failed.name td.onFailed else table }

/-- The routing an optional task gets by validation: where it would go on success, it also goes on
failure, unless the table says otherwise. -/
def allowFailureTarget (td : TaskDefinition) : TaskDefinition :=
  if td.allowFailure ∧ td.onExitCode.target failed.name = "" ∧
      td.onExitCode.target completed.name ≠ "" then
    { td with
      onExitCode := td.onExitCode.insert failed.name (td.onExitCode.target completed.name) }
  else td

/-- `LoadOnExitCode` for a task read from YAML: every key is also entered in upper case. -/
def loadOnExitCode (td : TaskDefinition) : TaskDefinition :=
  addOutcomes
    { td with
      onExitCode := td.onExitCode.entries.foldl
        (fun table entry => table.insert (newRequestState entry.1) entry.2) td.onExitCode }

/-- What an exit code of the routing table makes of a reply: a new status and error code. -/
def overrideStatusAndErrorCode (td : TaskDefinition) (exitCode : String) :
    Option (RequestState × String) :=
  let target := td.onExitCode.target (newRequestState exitCode)
  let targetState := newRequestState target
  if td.onExitCode.entries.isEmpty then none
  else if targetState = fatal.name then some (failed, ErrorCodes.fatal)
  else if targetState = failed.name then some (failed, "")
  else if targetState = completed.name then some (completed, "")
  else if targetState = executing.name then some (executing, "")
  else if targetState = restartJob.name then some (failed, ErrorCodes.restartJob)
  else if targetState = pauseJob.name then some (paused, ErrorCodes.pauseJob)
  else if targetState = waitForApproval.name then
    some (manualApprovalRequired, ErrorCodes.manualApprovalRequired)
  else if targetState = restartTask.name then some (failed, ErrorCodes.restartTask)
  else if Text.startsWith target "ERR_" then some (failed, target)
  else none

end TaskDefinition

/-! ## Job definitions -/

/-- A job definition. The checks of the semantic version, the cron expression, the notifications
and the triggers appear by their verdicts. -/
structure JobDefinition where
  jobType : String
  url : String := ""
  description : String := ""
  platform : String := ""
  tags : String := ""
  publicPlugin : Bool := false
  semVersionError : Option Error := none
  cronTriggerError : Option Error := none
  rawYaml : String
  maxConcurrency : ℤ
  retry : ℤ := 0
  tasks : List TaskDefinition
  notifyError : Option Error := none
  triggersError : Option Error := none

def maxTasksPerJob : ℕ := 100

namespace JobDefinition

open RequestState

def getTask (jd : JobDefinition) (taskType : String) : Option TaskDefinition :=
  jd.tasks.find? fun t => t.taskType == taskType

theorem getTask_eq_some {jd : JobDefinition} {taskType : String} {td : TaskDefinition}
    (h : jd.getTask taskType = some td) : td ∈ jd.tasks ∧ td.taskType = taskType :=
  ⟨List.mem_of_find?_eq_some h, by simpa using List.find?_some h⟩

def getLastAlwaysRunTasks (jd : JobDefinition) : List TaskDefinition :=
  jd.tasks.filter TaskDefinition.alwaysRun

/-- `GetNextTask`: by exit code first, then by status, then as if an optional task had
completed. -/
def getNextTask (jd : JobDefinition) (task : TaskDefinition) (taskStatus : RequestState)
    (exitCode : String) : Option TaskDefinition :=
  if task.onExitCode.entries.isEmpty then none
  else
    let target := task.onExitCode.target (newRequestState exitCode)
    let targetState := newRequestState target
    -- EXECUTING keeps running the same task
    if targetState = executing.name then some task
    else
      let nextTaskName :=
        if targetState = pauseJob.name ∨ targetState = paused.name then
          task.onExitCode.target pauseJob.name
        else if targetState = completed.name then task.onExitCode.target completed.name
        else if targetState = failed.name ∨ targetState = fatal.name then
          task.onExitCode.target failed.name
        else target
      match jd.getTask nextTaskName with
      | some next => some next
      | none =>
        match jd.getTask (task.onExitCode.target (newRequestState taskStatus.name)) with
        | some next => some next
        | none =>
          if task.allowFailure then jd.getTask (task.onExitCode.target completed.name)
          else none

/-! ## Validation -/

/-- The targets `validateReachableTasks` does not look up as tasks. -/
def reservedExitCodes : List String :=
  [fatal, restartJob, pauseJob, restartTask, executing, failed, completed].map name

/-- `validateReachableTasks` for one entry of a routing table: the task it leads to, if any. -/
def validateTarget (jd : JobDefinition) (t : TaskDefinition) (next : String) :
    Except Error (Option String) :=
  if next = "" then .error ⟨.plain, "empty task target for " ++ t.taskType⟩
  else if Text.startsWith next "ERR_" || reservedExitCodes.contains next then .ok none
  else
    match jd.getTask next with
    | some _ => .ok (some next)
    | none =>
      .error ⟨.plain, "task '" ++ t.taskType ++ "' refers to '" ++ next ++
        "' on-exit but it's not defined (" ++ toString jd.tasks.length ++ ")"⟩

/-- `validateReachableTasks`: the task types some routing table leads to. -/
def validateReachableTasks (jd : JobDefinition) : Except Error (List String) := do
  let onExitTypes ← jd.tasks.mapM fun t => t.onExitCode.targets.mapM (validateTarget jd t)
  return onExitTypes.flatten.reduceOption

/-- One round of the loop of `validateFirstTask`. -/
def firstTaskStep (jd : JobDefinition) (onExitTypes : List String)
    (firstTask : Option TaskDefinition) (t : TaskDefinition) :
    Except Error (Option TaskDefinition) :=
  if onExitTypes.contains t.taskType then .ok firstTask
  else if firstTask.isNone ∧ (jd.tasks.length = 1 ∨ t.hasNext) then .ok (some t)
  else
    .error ⟨.plain, "task " ++ t.taskType ++ " is not reachable, first task " ++
      (firstTask.map TaskDefinition.taskType).getD "" ++ " -- " ++ ", ".intercalate onExitTypes⟩

/-- `validateFirstTask`: the one task that no routing table leads to. -/
def validateFirstTask (jd : JobDefinition) (onExitTypes : List String) :
    Except Error TaskDefinition := do
  match ← jd.tasks.foldlM (firstTaskStep jd onExitTypes) none with
  | some firstTask => return firstTask
  | none =>
    throw ⟨.plain, "no first task found with onExitTypes " ++ ", ".intercalate onExitTypes⟩

def getFirstTask (jd : JobDefinition) : Except Error TaskDefinition := do
  let onExitTypes ← jd.validateReachableTasks
  jd.validateFirstTask onExitTypes

/-- One round of the loop of `validateTaskExitCodes`, over the tasks done so far. -/
def taskExitCodesStep (done : List TaskDefinition) (t : TaskDefinition) :
    Except Error (List TaskDefinition) := do
  let t ← t.validate
  if done.any fun u => u.taskType == t.taskType then
    throw ⟨.plain, "duplicate tasks of type " ++ t.taskType⟩
  return done ++ [t.addOutcomes.allowFailureTarget]

/-- `validateTaskExitCodes`: completes the routing tables and asks for at least one task that does
not lead on. -/
def validateTaskExitCodes (tasks : List TaskDefinition) : Except Error (List TaskDefinition) := do
  let done ← tasks.foldlM taskExitCodesStep []
  if done.all TaskDefinition.hasNext then
    throw ⟨.plain, "tasks are not valid and could not find starting task"⟩
  return done

def firstError (checks : List (Option Error)) : Except Error Unit :=
  match checks.reduceOption with
  | [] => .ok ()
  | err :: _ => .error err

def errorIf (condition : Bool) (message : String) : Option Error :=
  if condition then some ⟨.plain, message⟩ else none

/-- `Validate`: checks the definition and returns it with its routing tables completed. -/
def validate (jd : JobDefinition) : Except Error JobDefinition := do
  firstError [ errorIf (jd.jobType = "") "jobType is not specified",
      errorIf (jd.jobType.utf8ByteSize > 100) "jobType is too big",
      errorIf (jd.url.utf8ByteSize > 200) "URL is too big",
      errorIf (jd.description.utf8ByteSize > 500) "description is too big",
      errorIf (jd.platform.utf8ByteSize > 100) "platform is too big",
      errorIf (jd.tags.utf8ByteSize > 1000) "tags size is too big",
      errorIf (jd.publicPlugin && Text.pieces '.' jd.jobType < 3)
        ("the plugin jobType must start organization bundle id such as " ++
          "io.formicary.test-job or com.xyz.test-job"),
      jd.semVersionError,
      jd.cronTriggerError,
      errorIf jd.tasks.isEmpty ("tasks are not specified for " ++ jd.jobType),
      errorIf (jd.tasks.length > maxTasksPerJob)
        ("number of tasks cannot exceed " ++ toString maxTasksPerJob ++ " " ++ jd.jobType) ]
  -- a validated task has a method, so the methods of the job are never empty
  let tasks ← jd.tasks.mapM TaskDefinition.validate
  firstError [errorIf (jd.rawYaml = "") "raw-yaml not specified"]
  let tasks ← validateTaskExitCodes tasks
  let jd := { jd with
    tasks := tasks
    maxConcurrency := if jd.maxConcurrency ≤ 1 then 3 else jd.maxConcurrency }
  firstError [jd.notifyError]
  let _ ← jd.getFirstTask
  firstError [jd.triggersError]
  return jd

end JobDefinition

/-! ## Workflows -/

/-- A job definition as its YAML declares it, together with what validation makes of it. -/
structure Workflow where
  declared : JobDefinition
  stored : JobDefinition
  accepted : declared.validate = .ok stored

namespace Workflow

theorem eq_ok_of_isSome {ε α : Type*} (result : Except ε α)
    (h : result.toOption.isSome = true) : result = .ok (result.toOption.get h) := by
  cases result with
  | error err => simp [Except.toOption] at h
  | ok a => rfl

/-- The workflow of a definition that passes validation. -/
def ofDeclared (declared : JobDefinition) (h : declared.validate.toOption.isSome = true) :
    Workflow where
  declared := declared
  stored := declared.validate.toOption.get h
  accepted := eq_ok_of_isSome declared.validate h

/-- `ParseYamlTag`: the block of the first line that contains `task_type: ` and the name, which is
that of another task if its type begins with the name. -/
def parseYamlTag (jd : JobDefinition) (taskType : String) : Option TaskDefinition :=
  jd.tasks.find? fun task => Text.startsWith task.taskType taskType

/-- `GetDynamicTask`: a task is read from the YAML again each time it is run, which completes its
routing table with `on_completed` and `on_failed` but not as validation does for an optional
task. -/
def getDynamicTask (w : Workflow) (taskType : String) : Except Error TaskDefinition :=
  match w.stored.getTask taskType with
  | none => .error ⟨.plain, "failed to find task " ++ taskType⟩
  | some _ =>
    match parseYamlTag w.declared taskType with
    | none => .error ⟨.plain, "failed to find " ++ taskType ++ " from Yaml definition"⟩
    | some task => task.loadOnExitCode.validate

end Workflow

end Formicary

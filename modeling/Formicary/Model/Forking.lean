import Formicary.Library.Transition
import Formicary.Model.TaskRequest

/-! # Forked jobs

`SaveJobRequest` with its check against fork bombs, the two tasklets that create the requests of
other jobs, and the family of requests that one submission grows into. -/

namespace Formicary

/-! ## Parameters -/

def maxConfigValueLength : ℕ := 1000000

/-- How the names of the parameters begin that say from which job types a request was forked. -/
def parentJobType : String := "ParentJobType"

def forkedJob : String := "ForkedJob"

structure JobRequestParam where
  name : String
  value : String
  deriving DecidableEq, Repr

namespace JobRequestParam

/-- `NewJobRequestParam`, of a value that has been written as text. -/
def newJobRequestParam (name value : String) : Except Error JobRequestParam :=
  if value.utf8ByteSize > maxConfigValueLength then
    .error ⟨.plain, "value '" ++ value ++ "' is too big"⟩
  else .ok ⟨name, value⟩

def addParam (params : List JobRequestParam) (name value : String) :
    Except Error (List JobRequestParam) :=
  (newJobRequestParam name value).map fun param =>
    if params.any fun next => next.name == name then
      params.map fun next => if next.name = name then { next with value := param.value } else next
    else params ++ [param]

/-- `AddParam` where its error is not looked at. -/
def addParamOrSkip (params : List JobRequestParam) (name value : String) : List JobRequestParam :=
  ((addParam params name value).toOption).getD params

def namesParent (param : JobRequestParam) : Bool :=
  Text.startsWith param.name parentJobType

end JobRequestParam

open JobRequestParam

/-! ## Stored definitions -/

/-- A row of the job definitions. The executor options of a task are read from the YAML again with
the variables of each run. -/
structure StoredJob where
  id : String
  workflow : Workflow
  semVersion : String := ""
  active : Bool := true
  disabled : Bool := false
  userID : String
  organizationID : String
  options : String → Variables → ExecutorOptions

namespace StoredJob

def jobType (job : StoredJob) : String :=
  job.workflow.stored.jobType

def publicPlugin (job : StoredJob) : Bool :=
  job.workflow.stored.publicPlugin

def editable (job : StoredJob) (userID organizationID : String) : Bool :=
  if job.organizationID ≠ "" ∨ organizationID ≠ "" then job.organizationID = organizationID
  else job.userID = userID

end StoredJob

/-- What saving a request meets: the quota of the user, the transaction, and the new id. -/
structure SaveOutcome where
  quotaError : Option Error := none
  saveError : Option Error := none
  id : String
  deriving DecidableEq, Repr

/-- The columns of a job request that forking reads and writes. -/
structure SubmittedRequest where
  id : String
  jobType : String
  jobVersion : String
  jobDefinitionID : String
  parentID : String
  userID : String
  organizationID : String
  cascadeCancel : Bool
  params : List JobRequestParam
  deriving DecidableEq, Repr

namespace Forking

variable (defs : List StoredJob)

def findByType (qc : QueryContext) (jobType semVersion : String) : Option StoredJob :=
  let inScope := fun job : StoredJob =>
    QueryContext.Operand.holds job.userID job.organizationID (qc.addOrgUserWhereSQL true)
  if semVersion = "" then
    defs.find? fun job => job.jobType == jobType && job.active && inScope job
  else
    (defs.find? fun job =>
      job.jobType == jobType && job.semVersion == semVersion && job.publicPlugin).or
    (defs.find? fun job => job.jobType == jobType && job.semVersion == semVersion && inScope job)

/-- The type and the version are joined by a colon and taken apart again, unless there is another
colon in them. -/
def typeAndVersion (jobType version : String) : String × String :=
  let joined := jobType ++ ":" ++ version
  if Text.pieces ':' joined = 2 then (jobType, version) else (joined, "")

def getJobDefinitionByType (qc : QueryContext) (jobType version : String) :
    Except Error StoredJob :=
  let key := typeAndVersion jobType version
  if key.1 = "" then
    .error ⟨.validation, "cannot find job-definition because job-type is not specified"⟩
  else
    match findByType defs qc key.1 key.2 with
    | none => .error ⟨.notFound, "record not found"⟩
    | some job =>
      if !job.publicPlugin && !qc.isReadAdmin &&
          !job.editable qc.getUserID qc.getOrganizationID then
        .error ⟨.permission, "cannot access job by type " ++ key.1⟩
      else .ok job

def newJobRequestFromDefinition (job : StoredJob) : Except Error SubmittedRequest :=
  if job.disabled then .error ⟨.plain, "job " ++ job.jobType ++ " is disabled"⟩
  else
    .ok
      { id := ""
        jobType := job.jobType
        jobVersion := job.semVersion
        jobDefinitionID := job.id
        parentID := ""
        userID := job.userID
        organizationID := job.organizationID
        cascadeCancel := false
        params := [] }

/-! ## Saving a request -/

def maxForkJobs : ℕ := 10

/-- The check against fork bombs in `SaveJobRequest`. -/
def checkForks (req : SubmittedRequest) : Except Error Unit :=
  if req.params.any fun param => param.namesParent && param.value == req.jobType then
    .error ⟨.validation, "cannot fork job of same type '" ++ req.jobType ++ "'"⟩
  else if req.params.countP namesParent > maxForkJobs then
    .error ⟨.validation, "cannot fork job more than " ++ toString maxForkJobs ++ " jobs"⟩
  else .ok ()

def raise : Option Error → Except Error Unit
  | some err => .error err
  | none => .ok ()

/-- `SaveJobRequest`, of a request that is not in the table yet. -/
def saveJobRequest (qc : QueryContext) (req : SubmittedRequest) (outcome : SaveOutcome) :
    Except Error SubmittedRequest := do
  let req := { req with userID := qc.getUserID, organizationID := qc.getOrganizationID }
  let job ← getJobDefinitionByType defs qc req.jobType req.jobVersion
  raise outcome.quotaError
  let req := { req with jobDefinitionID := job.id }
  checkForks req
  raise outcome.saveError
  return { req with id := outcome.id }

/-! ## The tasklets -/

/-- `ParseTemplate`: the text a template expression yields for the given data. -/
abbrev Template := String → List (String × String) → Except String String

/-- How a tasklet words its errors about the parameters of the child. -/
structure InputErrors where
  resolve : SubWorkflowVariable → String → String
  set : SubWorkflowVariable → String → String

variable (parseTemplate : Template)

/-- The loop over the `input_params` of a child. -/
def addInputParams (errors : InputErrors) (data : List (String × String))
    (sw : Option SubWorkflowConfig) (params : List JobRequestParam) :
    Except Error (List JobRequestParam) :=
  match sw with
  | none => .ok params
  | some sw => do
      let inputs ← sw.inputMap
      inputs.foldlM (fun params input => do
          let resolved ← (parseTemplate input.value data).mapError fun err =>
            ⟨.plain, errors.resolve input err⟩
          (addParam params input.name resolved).mapError fun err =>
            ⟨err.kind, errors.set input err.message⟩)
        params

def templateData (vars : Variables) : List (String × String) :=
  (maskVariableValues vars).map fun v => (v.1, v.2.value.print)

namespace JobForkTasklet

def inputErrors : InputErrors where
  resolve input err := "sub_workflow.input_params: failed to resolve param '" ++ input.name ++
    "' (expr: " ++ input.value.quote ++ "): " ++ err
  set input err := "sub_workflow.input_params: failed to set param '" ++ input.name ++ "': " ++ err

/-- `Execute`, up to the request that it saves. -/
def execute (taskReq : TaskRequest) (outcome : SaveOutcome) : Except Error SubmittedRequest :=
  let opts := taskReq.executorOpts
  let qc := QueryContext.newQueryContextFromIDs taskReq.userID taskReq.organizationID
  if opts.forkJobType = "" then
    .error ⟨.plain, "fork_job_type is not specified for job " ++ taskReq.jobType ++
      " and request " ++ taskReq.jobRequestID⟩
  else do
    let job ← getJobDefinitionByType defs qc opts.forkJobType opts.forkJobVersion
    let req ← newJobRequestFromDefinition job
    let params ← addInputParams parseTemplate inputErrors (templateData taskReq.vars)
      opts.subWorkflow req.params
    let params := addParamOrSkip params forkedJob "true"
    let params := addParamOrSkip params (parentJobType ++ "_" ++ taskReq.jobRequestID)
      taskReq.jobType
    saveJobRequest defs qc
      { req with
        jobVersion := opts.forkJobVersion
        parentID := taskReq.jobRequestID
        cascadeCancel := true
        params := params } outcome

end JobForkTasklet

namespace FanOutTasklet

def inputErrors : InputErrors where
  resolve input err := "sub_workflow.input_params: param " ++ input.name.quote ++ ": " ++ err
  set input err := "sub_workflow.input_params: set param " ++ input.name.quote ++ ": " ++ err

/-- The data of one item, which hides a variable of the same name. -/
def itemData (parentReq : TaskRequest) (fanOut : FanOutConfig) (itemVal : String) :
    List (String × String) :=
  (fanOut.itemVar, itemVal) :: (templateData parentReq.vars).filter fun v => v.1 ≠ fanOut.itemVar

/-- `spawnChildJob`. Unlike the other tasklet it does not say from which type of job the child is
forked. -/
def spawnChildJob (parentReq : TaskRequest) (fanOut : FanOutConfig) (itemVal : String) (idx : ℕ)
    (outcome : SaveOutcome) : Except Error SubmittedRequest := do
  let qc := QueryContext.newQueryContextFromIDs parentReq.userID parentReq.organizationID
  let job ← getJobDefinitionByType defs qc fanOut.forkJobType fanOut.forkJobVersion
  let req ← newJobRequestFromDefinition job
  let params := addParamOrSkip req.params forkedJob "true"
  let params := addParamOrSkip params fanOut.itemVar itemVal
  let params := addParamOrSkip params ("FanOutIndex_" ++ toString idx) (toString idx)
  let params ← addInputParams parseTemplate inputErrors (itemData parentReq fanOut itemVal)
    parentReq.executorOpts.subWorkflow params
  saveJobRequest defs qc
    { req with
      jobVersion := fanOut.forkJobVersion
      parentID := parentReq.jobRequestID
      cascadeCancel := true
      params := params } outcome

/-- `Execute` for one item, up to the request that it saves. Where the items are run as tasks there
is none. -/
def execute (taskReq : TaskRequest) (itemVal : String) (idx : ℕ) (outcome : SaveOutcome) :
    Except Error (Option SubmittedRequest) :=
  match taskReq.executorOpts.fanOut with
  | none =>
    .error ⟨.plain, "fan_out configuration is missing from task " ++ taskReq.taskType⟩
  | some fanOut => do
      fanOut.validate
      if fanOut.isJobFanOut then
        some <$> spawnChildJob defs parseTemplate taskReq fanOut itemVal idx outcome
      else .ok none

end FanOutTasklet

/-! ## Families -/

/-- A request with the requests it goes back to, its parent first. -/
structure Member where
  request : SubmittedRequest
  ancestors : List SubmittedRequest
  deriving DecidableEq, Repr

/-- The chain of forks that ends in a request. -/
def Member.chain (m : Member) : List SubmittedRequest :=
  m.request :: m.ancestors

/-- The requests that one submission has grown into, the latest first. -/
abbrev Family := List Member

/-- What a task that forks jobs does in one run. -/
inductive Fork where
  | forkJob
  /-- one child of a fan-out -/
  | fanOut (itemVal : String) (idx : ℕ)
  deriving DecidableEq, Repr

structure Action where
  parent : Member
  taskType : String
  vars : Variables
  fork : Fork
  outcome : SaveOutcome

/-- `BuildTaskRequest` for a task of the definition of a request. -/
def buildTaskRequest (request : SubmittedRequest) (taskType : String) (vars : Variables) :
    Option TaskRequest :=
  (defs.find? fun job => job.id == request.jobDefinitionID).bind fun job =>
    (job.workflow.getDynamicTask taskType).toOption.map fun task =>
      { userID := request.userID
        organizationID := request.organizationID
        jobRequestID := request.id
        jobType := request.jobType
        taskType := task.taskType
        vars := vars
        executorOpts := { job.options taskType vars with method := task.method } }

/-- The child that the tasklet of the task's method saves. -/
def runTasklet (taskReq : TaskRequest) (fork : Fork) (outcome : SaveOutcome) :
    Option SubmittedRequest :=
  match taskReq.executorOpts.method, fork with
  | .forkJob, .forkJob => (JobForkTasklet.execute defs parseTemplate taskReq outcome).toOption
  | .fanOutJob, .fanOut itemVal idx =>
    (FanOutTasklet.execute defs parseTemplate taskReq itemVal idx outcome).toOption.join
  | _, _ => none

def child? (action : Action) : Option SubmittedRequest :=
  (buildTaskRequest defs action.parent.request action.taskType action.vars).bind fun taskReq =>
    runTasklet defs parseTemplate taskReq action.fork action.outcome

def step (family : Family) (action : Action) : Option Family :=
  if action.parent ∈ family then
    match child? defs parseTemplate action with
    | none => none
    | some child =>
      -- ids are not given twice
      if family.all fun m => m.request.id != child.id then
        some (⟨child, action.parent.chain⟩ :: family)
      else none
  else none

/-- A request that a user submits. Its parameters only come in when it is written, after the
check. -/
def UserSubmitted (request : SubmittedRequest) : Prop :=
  ∃ qc req outcome saved params, saveJobRequest defs qc req outcome = .ok saved ∧
    request = { saved with params := params }

def system : TransitionSystem Family Action where
  init family := ∃ request, UserSubmitted defs request ∧ family = [⟨request, []⟩]
  step := step defs parseTemplate

end Forking

end Formicary

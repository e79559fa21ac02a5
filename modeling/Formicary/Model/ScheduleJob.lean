import Formicary.Model.JobDefinitionRepository
import Formicary.Model.JobManager
import Formicary.Model.JobScheduler

/-! # Scheduling under the limits on concurrent runs

A request is submitted for a definition that its user can find, and keeps the id of the version it
was submitted for. -/

namespace Formicary

structure SchedulingUser where
  admin : Bool
  maxConcurrency : ℤ
  /-- the limit of the organization, if that is loaded -/
  organization : Option ℤ

structure SchedulerConfig where
  maxScheduleAttempts : ℕ
  notReadyJobsMaxWait : Time
  antRegistrationAliveTimeout : Time

/-- The stored definitions, and the job manager with the requests and the counters. -/
structure JobScheduler where
  definitions : JobDefinitionRepository
  manager : JobManager

namespace JobScheduler

open RequestState

def new : JobScheduler := ⟨Table.empty, JobManager.new⟩

variable (s : JobScheduler)

/-! ## Submission -/

/-- `SaveJobRequest`, of a request that has been given its id and is within the quota. -/
def saveJobRequest (qc : QueryContext) (req : JobRequest) (now : Time) : Option JobScheduler :=
  match s.definitions.getByType qc (req.jobType ++ ":" ++ req.jobVersion) with
  | .error _ => some s
  | .ok definition =>
    (s.manager.saveJobRequest
      { req with
        userID := qc.getUserID
        organizationID := qc.getOrganizationID
        jobDefinitionID := definition.id } now).map fun manager => { s with manager := manager }

/-! ## The checks of the scheduler -/

-- the users by their ids
variable (users : String → Option SchedulingUser)

def getUser (id : String) : Except Error SchedulingUser :=
  match users id with
  | some user => .ok user
  | none => .error ⟨.notFound, "record not found"⟩

def queryContext (user : Option SchedulingUser) (req : JobRequest) : QueryContext :=
  if user.any SchedulingUser.admin then .newQueryContext none
  else .newQueryContextFromIDs req.userID req.organizationID

def requestUser (req : JobRequest) : Except Error (Option SchedulingUser) :=
  if req.userID = "" then .ok none else (getUser users req.userID).map some

/-- `Validate` of the state machine, which loads the user and the version of the definition. -/
def validate (req : JobRequest) : Except Error (Option SchedulingUser × JobDefinitionRow) := do
  let user ← requestUser users req
  let row ← s.definitions.get (queryContext user req) req.jobDefinitionID
  let definition ← row.definition.validate
  let row := { row with definition := definition }
  if user.isNone && row.userID ≠ "" && !definition.publicPlugin then
    let owner ← getUser users row.userID
    return (some owner, row)
  return (user, row)

def checkUser (user : Option SchedulingUser) (req : JobRequest) : Except String Unit :=
  match user with
  | none => .ok ()
  | some user =>
    -- `UserOrgExecuting`
    let executingUser : ℤ :=
      (JobStatsRegistry.counted s.manager.stats.countByUser req.userID).size
    let executingOrg : ℤ :=
      (JobStatsRegistry.counted s.manager.stats.countByOrg req.organizationID).size
    if user.maxConcurrency ≤ executingUser then
      .error ("cannot submit more than jobs because user already running " ++
        toString executingUser ++ " jobs")
    else if user.organization.any fun maxConcurrency => maxConcurrency ≤ executingOrg then
      .error ("cannot submit more than jobs because org already running " ++
        toString executingOrg ++ " jobs")
    else .ok ()

def checkAntResourcesAndConcurrencyForJob (user : Option SchedulingUser) (row : JobDefinitionRow)
    (req : JobRequest) (resources : Resource.State) (timeout now : Time) : Except String Unit :=
  let executing := s.manager.stats.getExecutionCount req.getUserJobTypeKey
  if Int32.ofInt row.maxConcurrency ≤ executing then
    .error ("cannot submit more than jobs because already running " ++ toString executing.toInt ++
      " instances for " ++ row.jobType)
  else do
    if row.userID ≠ "" ∨ row.organizationID ≠ "" then s.checkUser user req
    resources.hasAntsForJobTags timeout now row.definition.checkedMethods
      (splitTags row.definition.buildTags)

/-- A request that is refused waits for a while, and fails after too many attempts. -/
def refuse (cfg : SchedulerConfig) (req : JobRequest) (err : String) (c : Clock) : JobScheduler :=
  if req.scheduleAttempts + 1 > cfg.maxScheduleAttempts then
    { s with
      manager := s.manager.scheduleFailed req ("allocation failed due to " ++ err ++
        ", max schedule attempts exceeded " ++ toString req.scheduleAttempts)
        ErrorCodes.antResources c }
  else
    let attempts := req.scheduleAttempts + 1
    let decrPriority : ℤ := if 5 ≤ attempts ∧ attempts % 5 = 0 ∧ 5 < req.jobPriority then 1 else 0
    let secs := min cfg.notReadyJobsMaxWait (attempts * 5)
    { s with
      manager := { s.manager with
        db := Lifecycle.commit s.manager.db (JobRequestRepository.incrementScheduleAttempts
          s.manager.db req.id secs decrPriority err c.now) } }

/-- `scheduleJob`, of a request that is within the quota and not filtered, and for which ants can be
reserved. -/
def scheduleJob (cfg : SchedulerConfig) (id freshID : String) (sent : Bool)
    (resources : Resource.State) (c : Clock) : Option JobScheduler :=
  match s.manager.inState id [pending, paused] with
  | none => none
  | some req =>
    match s.validate users req with
    | .error err =>
      some { s with
        manager := s.manager.scheduleFailed req
          ("failed to validate job-state due to " ++ err.message) ErrorCodes.validation c }
    | .ok (user, row) =>
      match s.checkAntResourcesAndConcurrencyForJob user row req resources
          cfg.antRegistrationAliveTimeout c.now with
      | .error err => some (s.refuse cfg req err c)
      | .ok () =>
        (s.manager.step (.schedule id freshID sent c)).map fun manager =>
          { s with manager := manager }

/-! ## Steps -/

/-- What becomes of a request that was scheduled, or could not be. -/
def handles : JobManager.Action → Bool
  | .scheduleFailed _ _ _ _ | .launch _ _ | .launchFailed _ _ _ | .supervise _ _ _ => true
  | _ => false

inductive Action where
  | saveDefinition (qc : QueryContext) (job : JobDefinitionRow) (freshID : String)
  | saveJobRequest (qc : QueryContext) (req : JobRequest) (now : Time)
  | scheduleJob (id freshID : String) (sent : Bool) (resources : Resource.State) (c : Clock)
  | handle (action : JobManager.Action)

-- whether the table of definitions has its unique index
variable (indexed : Bool) (cfg : SchedulerConfig)

def step (s : JobScheduler) : Action → Option JobScheduler
  | .saveDefinition qc job freshID =>
    -- generated ids are new
    if freshID ≠ "" ∧ s.definitions.find? freshID = none then
      some { s with definitions := (s.definitions.save indexed qc job freshID).1 }
    else none
  | .saveJobRequest qc req now => s.saveJobRequest qc req now
  | .scheduleJob id freshID sent resources c => s.scheduleJob users cfg id freshID sent resources c
  | .handle action =>
    if handles action then
      (s.manager.step action).map fun manager => { s with manager := manager }
    else none

def system : TransitionSystem JobScheduler Action where
  init s := s = new
  step := step users indexed cfg

end JobScheduler

end Formicary

import Formicary.Model.Forking
import Formicary.Model.JobDefinitionRepository
import Formicary.Model.JobRequestRepository

/-! # Requests that templates submit

`SubmitJob` is called while the template of a task is evaluated. -/

namespace Formicary

open JobRequestRepository

def JobRequest.editable (req : JobRequest) (userID organizationID : String) : Bool :=
  if req.organizationID ≠ "" ∨ organizationID ≠ "" then req.organizationID = organizationID
  else req.userID = userID

namespace SubmitJob

/-- What the template passes. The parameters are a map, and come in any order. -/
structure Call where
  jobType : String
  description : String
  params : List (String × String)
  deriving DecidableEq, Repr

/-- The identifiers that a submission generates, and its time. -/
structure Generated where
  id : String
  userKey : String
  /-- the key for a request that has ended and still holds the key of the submission -/
  rotatedKey : String
  now : Time

structure Surroundings where
  definitions : JobDefinitionRepository
  /-- `Next` of a cron expression -/
  next : String → Time → Option Time
  /-- a time in the format of RFC 3339 -/
  format : Time → String
  /-- the verdict on the quota of a user -/
  quotaError : QueryContext → Option Error
  /-- how the database words that a unique index is violated -/
  violation : String

variable (env : Surroundings)

/-! ## Saving -/

def getCronScheduleTimeAndUserKey (job : JobDefinitionRow) (now : Time) : Option (Time × String) :=
  let orgIDOrUserID := if job.organizationID ≠ "" then job.organizationID else job.userID
  if job.disabled || job.cronTrigger == "" then none
  else
    (env.next job.cronTrigger now).map fun nextTime =>
      (nextTime, (if orgIDOrUserID = "" then "default" else orgIDOrUserID) ++ "-" ++
        job.jobType ++ "-" ++ env.format nextTime)

/-- `UpdateUserKeyFromScheduleIfCronJob` and `UpdateScheduledAtFromCronTrigger`. -/
def scheduleRequest (job : JobDefinitionRow) (now : Time) (req : JobRequest) : JobRequest :=
  match getCronScheduleTimeAndUserKey env job now with
  | some (scheduledAt, userKey) => { req with scheduledAt := scheduledAt, userKey := userKey }
  | none => if req.scheduledAt < now - 1 then { req with scheduledAt := now } else req

def definitionFor (qc : QueryContext) (jobType jobVersion : String) :
    Except Error JobDefinitionRow := do
  let job ← env.definitions.getByType qc (jobType ++ ":" ++ jobVersion)
  if qc.getUserID ≠ "" then Forking.raise (env.quotaError qc)
  return job

/-- What `SaveJobRequest` sets before it saves a request. -/
def pendingRequest (job : JobDefinitionRow) (now : Time) (req : JobRequest) : JobRequest :=
  scheduleRequest env job now
    { req with
      jobState := .pending
      jobDefinitionID := job.id
      jobExecutionID := none
      errorCode := ""
      errorMessage := ""
      scheduleAttempts := 0
      retried := 0
      updatedAt := now }

def checkForks (req : JobRequest) (params : List JobRequestParam) : Except Error Unit :=
  Forking.checkForks
    { id := req.id
      jobType := req.jobType
      jobVersion := req.jobVersion
      jobDefinitionID := req.jobDefinitionID
      parentID := req.parentID
      userID := req.userID
      organizationID := req.organizationID
      cascadeCancel := req.cascadeCancel
      params := params }

/-- `SaveJobRequest` up to the statement that saves the request, which is returned as it is left. -/
def prepare (qc : QueryContext) (req : JobRequest) (params : List JobRequestParam) (now : Time) :
    JobRequest × Except Error Unit :=
  let req := { req with userID := qc.getUserID, organizationID := qc.getOrganizationID }
  match definitionFor env qc req.jobType req.jobVersion with
  | .error err => (req, .error err)
  | .ok job =>
    let req := pendingRequest env job now req
    (req, checkForks req params)

/-- `Validate`; of several failed checks the last one is reported. -/
def validate (req : JobRequest) : Except Error Unit :=
  if req.jobDefinitionID = "" then .error ⟨.validation, "jobDefinitionID is not specified"⟩
  else if req.jobType = "" then .error ⟨.validation, "jobType is not specified"⟩
  else .ok ()

/-- The insertion of a row under the unique indexes. -/
def create (db : Database) (row : JobRequest) : Except Error Database :=
  if db.requests.rows.any (holdsKey row.userKey) then
    .error ⟨.plain, env.violation⟩
  else
    match db.requests.insert? row with
    | some requests => .ok { db with requests := requests }
    | none => .error ⟨.plain, env.violation⟩

/-- The replacement of the row with the id of the request, under the unique index on keys. -/
def replace (db : Database) (row : JobRequest) : Except Error Database :=
  if db.requests.rows.any fun other =>
      other.id != row.id && holdsKey row.userKey other then
    .error ⟨.plain, env.violation⟩
  else
    .ok { db with
      requests := db.requests.update (fun other => other.id == row.id)
        (fun other => { row with id := other.id }) (fun _ => rfl) }

def keyFor (req : JobRequest) (new : Generated) : String :=
  if req.userKey = "" then new.userKey else req.userKey

def newRow (qc : QueryContext) (req : JobRequest) (new : Generated) : JobRequest :=
  { req with
    id := new.id
    userID := qc.getUserID
    organizationID := qc.getOrganizationID
    jobState := .pending
    userKey := keyFor req new
    updatedAt := new.now }

/-- `Save` of the repository. A request without an id is given one before it is inserted, and keeps
it when the transaction fails. -/
def save (db : Database) (qc : QueryContext) (req : JobRequest) (new : Generated) :
    JobRequest × Except Error Database :=
  match validate req with
  | .error err => (req, .error err)
  | .ok () =>
    if req.id = "" then (newRow qc req new, create env db (newRow qc req new))
    else
      let req := { req with userID := qc.getUserID, organizationID := qc.getOrganizationID }
      match get db qc req.id with
      | .error err => (req, .error err)
      | .ok old =>
        if !old.editable qc.getUserID qc.getOrganizationID then
          (req, .error ⟨.permission, "cannot access job request " ++ req.id⟩)
        else
          let row := { req with userKey := keyFor req new, updatedAt := new.now }
          (row, replace env db row)

def saveJobRequest (db : Database) (qc : QueryContext) (req : JobRequest)
    (params : List JobRequestParam) (new : Generated) : JobRequest × Except Error Database :=
  match prepare env qc req params new.now with
  | (req, .error err) => (req, .error err)
  | (req, .ok ()) => save env db qc req new

/-! ## Submission -/

/-- `NewRequest` with the job type and the description. -/
def newRequest (call : Call) (now : Time) : JobRequest where
  id := ""
  jobType := call.jobType
  userID := ""
  jobDefinitionID := ""
  jobState := .pending
  scheduledAt := now
  updatedAt := now
  description := call.description

def takeParam (acc : JobRequest × List JobRequestParam) (param : String × String) :
    Except Error (JobRequest × List JobRequestParam) :=
  let (req, params) := acc
  if param.1 = "_user_key" then .ok ({ req with userKey := param.2 }, params)
  else if param.1 = "_parent_id" then .ok ({ req with parentID := param.2 }, params)
  else
    match JobRequestParam.addParam params param.1 param.2 with
    | .ok params => .ok (req, params)
    | .error err =>
      .error ⟨err.kind, "SubmitJob: invalid param " ++ param.1.quote ++ ": " ++ err.message⟩

def readParams (call : Call) (now : Time) : Except Error (JobRequest × List JobRequestParam) :=
  call.params.foldlM takeParam (newRequest call now, [])

/-- The request that is named as the parent, whoever owns it. -/
def findParent (db : Database) (req : JobRequest) : Option JobRequest :=
  if req.parentID = "" then none
  else (get db (.newQueryContext none) req.parentID).toOption

/-- The context of the owner of the parent, or of nobody. -/
def contextOf (parent : Option JobRequest) : QueryContext :=
  .newQueryContextFromIDs (parent.elim "" JobRequest.userID)
    (parent.elim "" JobRequest.organizationID)

/-- Whether the error of a failed insertion is taken for a duplicate key. -/
def isDuplicate (err : Error) : Bool :=
  Text.contains err.message "Duplicate entry" ||
    Text.contains err.message "UNIQUE constraint failed"

def getByUserKey (db : Database) (qc : QueryContext) (userKey : String) : Option JobRequest :=
  db.requests.first? fun req =>
    qc.orgElseUserWhere true req.userID req.organizationID && req.userKey == userKey

/-- The request that is looked up after a failed insertion. -/
def findExisting (db : Database) (qc : QueryContext) (req : JobRequest) (err : Error) :
    Option JobRequest :=
  if isDuplicate err && req.userKey != "" then getByUserKey db qc.withAdmin req.userKey else none

/-- What a submission leaves behind: the database, the requests that it has read, and its result. -/
structure Submitted where
  db : Database
  read : List JobRequest
  result : Except Error String

/-- The second attempt, after the key was taken from the request that holds it. -/
def retry (db : Database) (qc : QueryContext) (existing req : JobRequest)
    (params : List JobRequestParam) (new : Generated) : Database × Except Error String :=
  match updateJobState db existing.id none existing.jobState "" "" 0 0 0 new.rotatedKey new.now with
  | .error err =>
    (db, .error ⟨err.kind, "SubmitJob: failed to rotate stale user_key for job " ++ existing.id ++
      ": " ++ err.message⟩)
  | .ok db =>
    match saveJobRequest env db qc req params new with
    | (req, .ok db) => (db, .ok req.id)
    | (_, .error err) =>
      (db, .error ⟨err.kind, "SubmitJob: SaveJobRequest retry failed for job-type " ++
        req.jobType.quote ++ ": " ++ err.message⟩)

def afterFailure (db : Database) (qc : QueryContext) (req : JobRequest)
    (params : List JobRequestParam) (err : Error) (new : Generated) : Submitted :=
  match findExisting db qc req err with
  | none =>
    ⟨db, [], .error ⟨err.kind, "SubmitJob: SaveJobRequest failed for job-type " ++
      req.jobType.quote ++ ": " ++ err.message⟩⟩
  | some existing =>
    if existing.jobState.isTerminal then
      let (db, result) := retry env db qc existing req params new
      ⟨db, [existing], result⟩
    else ⟨db, [existing], .ok existing.id⟩

def submitJob (db : Database) (call : Call) (new : Generated) : Submitted :=
  match readParams call new.now with
  | .error err => ⟨db, [], .error err⟩
  | .ok (req, params) =>
    let parent := findParent db req
    let qc := contextOf parent
    match saveJobRequest env db qc req params new with
    | (req, .ok db) => ⟨db, parent.toList, .ok req.id⟩
    | (req, .error err) =>
      let failed := afterFailure env db qc req params err new
      { failed with read := parent.toList ++ failed.read }

end SubmitJob

end Formicary

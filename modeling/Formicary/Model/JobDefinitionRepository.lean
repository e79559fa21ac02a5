import Formicary.Library.Transition
import Formicary.Model.Database
import Formicary.Model.JobDefinition

/-! # The repository of job definitions

A definition is stored once for every version. -/

namespace Formicary

/-- Whom a row belongs to: its organization, and without one its user. -/
inductive Tenant where
  | organization (id : String)
  | user (id : String)
  deriving DecidableEq, Repr

def Tenant.of (userID organizationID : String) : Tenant :=
  if organizationID ≠ "" then .organization organizationID else .user userID

def QueryContext.tenant (qc : QueryContext) : Tenant :=
  .of qc.getUserID qc.getOrganizationID

def JobRequest.tenant (req : JobRequest) : Tenant :=
  .of req.userID req.organizationID

/-! ## Semantic versions -/

namespace SemVersion

/-- `Atoi`. -/
def atoi? (s : String) : Option ℤ :=
  let (sign, digits) : ℤ × List Char :=
    match s.toList with
    | '-' :: digits => (-1, digits)
    | '+' :: digits => (1, digits)
    | digits => (1, digits)
  if digits ≠ [] ∧ digits.all Char.isDigit then
    let n := sign * digits.foldl (fun n c => 10 * n + (c.toNat - '0'.toNat)) 0
    if -2 ^ 63 ≤ n ∧ n < 2 ^ 63 then some n else none
  else none

def digit? (part : String) : Option ℕ :=
  (atoi? part).bind fun n => if 0 ≤ n then some n.toNat else none

/-- Whether `CheckSemVersion`, where it finds nothing wrong, takes the version for a release. A
development version or release candidate ends in something that is no number. -/
def isRelease (semVersion : String) : Bool :=
  (((Text.split (· == '.') semVersion).getLast?).bind digit?).isSome

def padded (n : ℕ) : String :=
  let digits := (toString n).toList
  String.ofList (List.replicate (9 - digits.length) '0' ++ digits)

/-- `NormalizedSemVersion`. -/
def normalized (semVersion : String) : String :=
  let base := ((Text.cut semVersion "-").or
    ((Text.cut semVersion "rc").or (Text.cut semVersion "dev"))).elim semVersion Prod.fst
  let write := fun (text : String) (part : String × ℕ) =>
    match digit? part.1 with
    | some n => if part.2 < 3 then text ++ (if 0 < part.2 then "." else "") ++ padded n else text
    | none => text
  (Text.split (· == '.') base).zipIdx.foldl write ""

end SemVersion

/-! ## Rows -/

/-- A stored version of a job definition. What `ValidateBeforeSave` and `AfterLoad` check besides
the definition itself appears by its verdict. -/
structure JobDefinitionRow where
  id : String
  userID : String
  organizationID : String := ""
  version : ℤ := 0
  semVersion : String := ""
  active : Bool
  disabled : Bool := false
  definition : JobDefinition
  configs : List (String × String) := []
  jobVariables : List (String × String) := []
  retentionDaysForFailed : ℤ := 0
  retentionDaysForCompleted : ℤ := 0
  retentionDaysForCancelled : ℤ := 0
  cronTrigger : String := ""
  saveError : Option Error := none
  loadError : Option Error := none

namespace JobDefinitionRow

variable (job : JobDefinitionRow)

def jobType : String := job.definition.jobType

def tenant : Tenant := .of job.userID job.organizationID

def maxConcurrency : ℤ := job.definition.maxConcurrency

def setMaxConcurrency (maxConcurrency : ℤ) : JobDefinitionRow :=
  { job with definition := { job.definition with maxConcurrency := maxConcurrency } }

def ownedBy (qc : QueryContext) : JobDefinitionRow :=
  { job with userID := qc.getUserID, organizationID := qc.getOrganizationID }

def editable (userID organizationID : String) : Bool :=
  if job.organizationID ≠ "" ∨ organizationID ≠ "" then job.organizationID = organizationID
  else job.userID = userID

/-- Names and values, as `ConfigsString` and `VariablesString` write them. -/
def nameValues (values : List (String × String)) : String :=
  values.foldl (fun text value => text ++ value.1 ++ "=" ++ value.2 ++ " ") ""

def configsString : String := nameValues job.configs

def variablesString : String :=
  nameValues (job.jobVariables.insertionSort fun a b => a.1 ≤ b.1)

def validateBeforeSave : Except Error JobDefinitionRow := do
  let definition ← job.definition.validate
  JobDefinition.firstError [job.saveError]
  return { job with definition := definition }

/-- `postProcessJob`, by way of `AfterLoad`. -/
def postProcessJob : Except Error JobDefinitionRow := do
  JobDefinition.firstError [job.loadError]
  let definition ← job.definition.validate
  return { job with definition := definition }

def sameAs (old : JobDefinitionRow) : Bool :=
  job.definition.rawYaml == old.definition.rawYaml && job.maxConcurrency == old.maxConcurrency &&
    job.disabled == old.disabled && job.configsString == old.configsString &&
    job.variablesString == old.variablesString && old.active

end JobDefinitionRow

/-! ## Statements -/

abbrev JobDefinitionRepository := Table JobDefinitionRow.id

namespace JobDefinitionRepository

variable (repo : JobDefinitionRepository)

/-- `AddOrgElseUserWhere` for reading, with the job type. -/
def selects (qc : QueryContext) (jobType : String) (row : JobDefinitionRow) : Bool :=
  qc.orgElseUserWhere true row.userID row.organizationID && row.jobType == jobType

/-- `getLatestByType`: the row whose version is one less than the number of rows. The variables are
not loaded. -/
def getLatestByType (qc : QueryContext) (jobType : String) : Option JobDefinitionRow :=
  (repo.first? fun row =>
    selects qc jobType row && row.version == (repo.affected (selects qc jobType) : ℤ) - 1).map
    fun row => { row with jobVariables := [] }

def findByType (qc : QueryContext) (jobType semVersion : String) : Option JobDefinitionRow :=
  let inScope := fun row : JobDefinitionRow =>
    QueryContext.Operand.holds row.userID row.organizationID (qc.addOrgUserWhereSQL true)
  if semVersion = "" then
    repo.first? fun row => row.jobType == jobType && row.active && inScope row
  else
    (repo.first? fun row =>
      row.jobType == jobType && row.semVersion == semVersion && row.definition.publicPlugin).or
    (repo.first? fun row => row.jobType == jobType && row.semVersion == semVersion && inScope row)

/-- A row that was read is completed, and withheld from callers who may not have it. -/
def load (qc : QueryContext) (row : JobDefinitionRow) (denied : String) :
    Except Error JobDefinitionRow := do
  let row ← row.postProcessJob
  if !row.definition.publicPlugin && !qc.isReadAdmin &&
      !row.editable qc.getUserID qc.getOrganizationID then
    throw ⟨.permission, denied⟩
  return row

def get (qc : QueryContext) (id : String) : Except Error JobDefinitionRow :=
  if id = "" then .error ⟨.validation, "job-id is not specified for fetching job-definition"⟩
  else
    let inScope := fun row : JobDefinitionRow =>
      QueryContext.Operand.holds row.userID row.organizationID (qc.addOrgUserWhereSQL true)
    match repo.first? fun row => row.id == id && (row.definition.publicPlugin || inScope row) with
    | none => .error ⟨.notFound, "record not found"⟩
    | some row => load qc row ("cannot access job by id " ++ id)

/-- A job type may have a version after a colon. -/
def typeAndVersion (text : String) : String × String :=
  match Text.split (· == ':') text with
  | [jobType, semVersion] => (jobType, semVersion)
  | _ => (text, "")

def getByType (qc : QueryContext) (text : String) : Except Error JobDefinitionRow :=
  let key := typeAndVersion text
  if key.1 = "" then
    .error ⟨.validation, "cannot find job-definition because job-type is not specified"⟩
  else
    match repo.findByType qc key.1 key.2 with
    | none => .error ⟨.notFound, "record not found"⟩
    | some row => load qc row ("cannot access job by type " ++ key.1)

def getByTypeAndSemanticVersion (qc : QueryContext) (jobType semVersion : String) :
    Except Error JobDefinitionRow :=
  repo.getByType qc (jobType ++ ":" ++ semVersion)

def delete (qc : QueryContext) (id : String) : Except Error JobDefinitionRepository :=
  let p := fun row : JobDefinitionRow =>
    qc.orgElseUserWhere false row.userID row.organizationID && row.id == id
  match repo.updateOne? p (fun row => { row with active := false }) (fun _ => rfl) with
  | some repo => .ok repo
  | none =>
    .error ⟨.notFound,
      "failed to delete job with id " ++ id ++ ", rows " ++ toString (repo.affected p)⟩

def setDisabled (id : String) (disabled : Bool) : Except Error JobDefinitionRepository :=
  let p := fun row : JobDefinitionRow => row.id == id
  match repo.updateOne? p (fun row => { row with disabled := disabled }) (fun _ => rfl) with
  | some repo => .ok repo
  | none =>
    .error ⟨.notFound,
      "failed to set disabled job with id " ++ id ++ ", rows " ++ toString (repo.affected p)⟩

/-! ## Saving -/

/-- A release of a public plugin is published once, and no older one after it. -/
def checkPlugin (qc : QueryContext) (job : JobDefinitionRow) : Except Error Unit :=
  if job.definition.publicPlugin && SemVersion.isRelease job.semVersion then
    match repo.getByTypeAndSemanticVersion qc job.jobType job.semVersion with
    | .error _ => .ok ()
    | .ok old =>
      if old.semVersion = job.semVersion ∨
          SemVersion.normalized job.semVersion < SemVersion.normalized old.semVersion then
        .error ⟨.duplicate, "plugin " ++ job.jobType ++ " - " ++ old.semVersion ++
          " older version already exists for the version " ++ job.semVersion⟩
      else .ok ()
  else .ok ()

/-- What a save is going to do. -/
inductive Saving where
  | skip (job : JobDefinitionRow)
  | create (job : JobDefinitionRow)
  /-- the version after an old one, which is made inactive -/
  | replace (old job : JobDefinitionRow)

/-- `Save` until it begins to write. -/
def prepare (qc : QueryContext) (job : JobDefinitionRow) : Except Error Saving :=
  match (job.ownedBy qc).validateBeforeSave with
  | .error err => .error ⟨.validation, err.message⟩
  | .ok job =>
    match repo.checkPlugin qc job with
    | .error err => .error err
    | .ok () =>
      match repo.getLatestByType qc job.jobType with
      | none => .ok (.create { job with version := 0, disabled := false })
      | some old =>
        if old.id = "" then .ok (.create { job with version := 0, disabled := false })
        else if job.sameAs old then .ok (.skip job)
        else
          -- the limit, the switch and the configs of the old version stay
          .ok (.replace old
            { job.setMaxConcurrency old.maxConcurrency with
              version := old.version + 1
              disabled := old.disabled
              configs := old.configs })

-- whether there is the unique index of the migrations on the user, the job type and the version,
-- which the schema made for SQLite does not have
variable (indexed : Bool)

/-- The transaction that inserts the row under a new id. It takes over the rows of the configs from
the old version. -/
def create (job : JobDefinitionRow) (oldID : Option String) (freshID : String) :
    JobDefinitionRepository × Except Error JobDefinitionRow :=
  let row := { job with id := freshID, active := true }
  let refused := indexed && repo.rows.any fun other =>
    other.userID == row.userID && other.jobType == row.jobType && other.version == row.version
  if refused then (repo, .error ⟨.plain, "UNIQUE constraint failed"⟩)
  else
    let released := repo.update (fun row => oldID == some row.id)
      (fun row => { row with configs := [] }) (fun _ => rfl)
    match released.insert? row with
    | some repo => (repo, .ok row)
    | none => (repo, .error ⟨.plain, "UNIQUE constraint failed"⟩)

/-- `Save`. The old version is made inactive outside the transaction. -/
def save (qc : QueryContext) (job : JobDefinitionRow) (freshID : String) :
    JobDefinitionRepository × Except Error JobDefinitionRow :=
  match repo.prepare qc job with
  | .error err => (repo, .error err)
  | .ok (.skip job) => (repo, .ok job)
  | .ok (.create job) => create repo indexed job none freshID
  | .ok (.replace old job) =>
    match repo.delete qc old.id with
    | .error err => (repo, .error err)
    | .ok repo => create repo indexed job (some old.id) freshID

/-! ## Calls -/

/-- The rows, and what the last call has returned if it saved. -/
structure Saved where
  repo : JobDefinitionRepository
  returned : Option JobDefinitionRow

inductive Call where
  | save (qc : QueryContext) (job : JobDefinitionRow) (freshID : String)
  | delete (qc : QueryContext) (id : String)
  | setDisabled (id : String) (disabled : Bool)

def step (s : Saved) : Call → Option Saved
  | .save qc job freshID =>
    -- generated ids are new
    if freshID ≠ "" ∧ s.repo.find? freshID = none then
      let (repo, result) := save s.repo indexed qc job freshID
      some ⟨repo, result.toOption⟩
    else none
  | .delete qc id => some ⟨(s.repo.delete qc id).toOption.getD s.repo, none⟩
  | .setDisabled id disabled => some ⟨(s.repo.setDisabled id disabled).toOption.getD s.repo, none⟩

def system : TransitionSystem Saved Call where
  init s := s = ⟨Table.empty, none⟩
  step := step indexed

end JobDefinitionRepository

end Formicary

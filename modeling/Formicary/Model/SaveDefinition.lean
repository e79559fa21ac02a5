import Formicary.Model.JobDefinitionRepository

/-! # Saving a definition, statement by statement

`Save` inserts the rows of a version in a transaction. -/

namespace Formicary

/-- The tables that a version of a definition is stored in. -/
structure DefinitionStore where
  repo : JobDefinitionRepository
  jobVariables : List Reference
  tasks : List Reference
  /-- `formicary_task_definition_variables`, of a task -/
  taskVariables : List Reference
  configs : List Reference

namespace DefinitionStore

/-- The statements of a save, and the ends of its transaction. -/
inductive Stage where
  | begin
  | latest
  | deactivate
  | job
  | jobVariables
  | task (index : ℕ)
  | taskVariables (index : ℕ)
  | configs
  | commit
  deriving DecidableEq, Repr

structure IDs where
  job : String
  jobVariables : List String
  task : ℕ → String
  taskVariables : ℕ → List String
  configs : List String

abbrev Statement := Stage × (DefinitionStore → Except Error DefinitionStore)

/-- A transaction runs its statements one after another until one fails. -/
def transaction (faults : Stage → Option Error) (statements : List Statement)
    (s : DefinitionStore) : Except Error DefinitionStore :=
  statements.foldlM (fun s statement =>
    match faults statement.1 with
    | some err => .error err
    | none => statement.2 s) s

section

variable (indexed : Bool) (job : JobDefinitionRow) (oldID : Option String) (ids : IDs)

def createJob (s : DefinitionStore) : Except Error DefinitionStore :=
  match s.repo.create indexed job oldID ids.job with
  | (repo, .ok _) => .ok { s with repo := repo }
  | (_, .error err) => .error err

def replaceVariables (s : DefinitionStore) : DefinitionStore :=
  { s with jobVariables := ids.jobVariables.map (⟨·, ids.job⟩) ++ s.jobVariables }

def createTask (index : ℕ) (s : DefinitionStore) : DefinitionStore :=
  { s with tasks := ⟨ids.task index, ids.job⟩ :: s.tasks }

def replaceTaskVariables (index : ℕ) (s : DefinitionStore) : DefinitionStore :=
  { s with
    taskVariables := (ids.taskVariables index).map (⟨·, ids.task index⟩) ++ s.taskVariables }

/-- The configs of the old version become those of the new one. -/
def replaceConfigs (s : DefinitionStore) : DefinitionStore :=
  { s with
    configs :=
      match oldID with
      | some old => s.configs.map fun config =>
        if config.ownerID = old then { config with ownerID := ids.job } else config
      | none => ids.configs.map (⟨·, ids.job⟩) ++ s.configs }

/-- The statements on the handle of the transaction. -/
def statements : List Statement :=
  (.job, createJob indexed job oldID ids) ::
  (.jobVariables, fun s => .ok (replaceVariables ids s)) ::
  (List.range job.definition.tasks.length).flatMap (fun index =>
    [(.task index, fun s => .ok (createTask ids index s)),
      (.taskVariables index, fun s => .ok (replaceTaskVariables ids index s))]) ++
  [(.configs, fun s => .ok (replaceConfigs oldID ids s)), (.commit, .ok)]

end

variable (faults : Stage → Option Error) (indexed : Bool)

/-- What a save is going to do. The latest version counts as missing if it cannot be read. -/
def preparing (repo : JobDefinitionRepository) (qc : QueryContext) (job : JobDefinitionRow) :
    Except Error JobDefinitionRepository.Saving :=
  match repo.prepare qc job with
  | .error err => .error err
  | .ok saving =>
    match faults .begin with
    | some err => .error err
    | none =>
      match faults .latest with
      | none => .ok saving
      | some _ =>
        match (job.ownedBy qc).validateBeforeSave with
        | .error err => .error ⟨.validation, err.message⟩
        | .ok job => .ok (.create { job with version := 0, disabled := false })

/-- The rows of the version are inserted, or the transaction is rolled back. -/
def insert (s : DefinitionStore) (job : JobDefinitionRow) (oldID : Option String) (ids : IDs) :
    DefinitionStore × Except Error JobDefinitionRow :=
  match transaction faults (statements indexed job oldID ids) s with
  | .error err => (s, .error err)
  | .ok s => (s, .ok { job with id := ids.job, active := true })

def save (s : DefinitionStore) (qc : QueryContext) (job : JobDefinitionRow) (ids : IDs) :
    DefinitionStore × Except Error JobDefinitionRow :=
  match preparing faults s.repo qc job with
  | .error err => (s, .error err)
  | .ok (.skip job) => (s, .ok job)
  | .ok (.create job) => insert faults indexed s job none ids
  | .ok (.replace old job) =>
    match faults .deactivate with
    | some err => (s, .error ⟨.notFound, err.message⟩)
    | none =>
      match s.repo.delete qc old.id with
      | .error err => (s, .error err)
      | .ok repo => insert faults indexed { s with repo := repo } job (some old.id) ids

end DefinitionStore

end Formicary

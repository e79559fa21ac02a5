import Formicary.Model.JobDefinitionRepository
import Formicary.Model.Voting

/-! # Votes under the stored definitions

`CastApprovalVote` takes the policy of a task from the definition that it finds by the type of the
request. -/

namespace Formicary.Approval

-- what `ReloadFromYaml` reads as the policy of a task; policies are not stored otherwise
variable (yaml : String → String → Option ApprovalPolicy)

/-- The policy of a task, which `postProcessJob` lays over the stored task. -/
def taskPolicy (job : JobDefinitionRow) (taskType : String) : Option ApprovalPolicy :=
  (job.definition.tasks.find? fun task => task.taskType == taskType).bind fun _ =>
    yaml job.definition.rawYaml taskType

/-- The policy that `CastApprovalVote` and `GetApprovalStatus` look up. -/
def policyByType (definitions : JobDefinitionRepository) (qc : QueryContext) (request : JobRequest)
    (taskType : String) : Option ApprovalPolicy :=
  match definitions.getByType qc request.jobType with
  | .error _ => none
  | .ok job => taskPolicy yaml job taskType

/-- The database with the stored definitions, and what the votes have returned, the last first. -/
structure Approvals where
  definitions : JobDefinitionRepository.Saved
  db : Database
  results : List (Except Error ApprovalStatus)

namespace Approvals

inductive Action where
  | definition (call : JobDefinitionRepository.Call)
  | vote (c : VoteClock) (qc : QueryContext) (req : VoteRequest)

variable (indexed : Bool)

def step (s : Approvals) : Action → Option Approvals
  | .definition call =>
    (JobDefinitionRepository.step indexed s.definitions call).map fun definitions =>
      { s with definitions := definitions }
  | .vote c qc req =>
    let (db, result) :=
      castApprovalVote s.db c (policyByType yaml s.definitions.repo) qc req
    some { s with db := db, results := result :: s.results }

def system : TransitionSystem Approvals Action where
  init _ := True
  step := step yaml indexed

end Approvals

end Formicary.Approval

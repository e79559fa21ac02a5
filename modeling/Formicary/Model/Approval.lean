import Formicary.Library.Text
import Formicary.Model.JobExecutionRepository
import Formicary.Model.JobRequestRepository

/-! # The approval service

Policies, voting, and the two transactions that decide a task waiting for approval. -/

namespace Formicary.Approval

open RequestState

/-! ## Policies -/

structure ApprovalPolicy where
  minApprovals : ℤ
  allowedRoles : String
  allowedUsers : String
  requireUnanimous : Bool
  slaDeadline : Time
  timeoutAction : TimeoutAction
  escalationRecipients : String
  deriving DecidableEq, Repr

/-- The comma-separated parts of a string, trimmed and without the empty ones. -/
def splitTrimmed (s : String) : List String :=
  ((s.toList.splitOn ',').map fun part => Text.trimSpace (String.ofList part)).filter (· != "")

namespace ApprovalPolicy

/-- `Validate`, which `SavePolicy` calls; a policy read from a job's YAML does not pass it. -/
def validate (p : ApprovalPolicy) : Except Error Unit :=
  if p.minApprovals < 1 then .error ⟨.plain, "min_approvals must be at least 1"⟩
  else if p.slaDeadline < 0 then .error ⟨.plain, "sla_deadline cannot be negative"⟩
  else
    match p.timeoutAction with
    | .other _ =>
      .error ⟨.plain, "timeout_action must be AUTO_APPROVE, AUTO_REJECT, or ESCALATE"⟩
    | _ => .ok ()

def allowedRoleList (p : ApprovalPolicy) : List String := splitTrimmed p.allowedRoles

def allowedUserList (p : ApprovalPolicy) : List String := splitTrimmed p.allowedUsers

end ApprovalPolicy

/-- The voter id reserved for decisions the system makes when a deadline passes. -/
def syntheticVoterID : String := "system:sla-timeout"

/-- `authorizeVoter`. The list of users is compared with the voter id and with the caller's own
id; roles are those of the caller. -/
def authorizeVoter (qc : QueryContext) (policy : Option ApprovalPolicy) (voterID : String) :
    Except Error Unit :=
  if voterID = syntheticVoterID then
    .error ⟨.permission, "voter ID \"" ++ syntheticVoterID ++ "\" is reserved for system use"⟩
  else
    match policy with
    | none => .error ⟨.permission, "no approval policy configured for this task"⟩
    | some p =>
      if p.allowedUserList.isEmpty && p.allowedRoleList.isEmpty then .ok ()
      else if p.allowedUserList.any fun uid => uid == voterID || uid == qc.getUserID then .ok ()
      else if qc.user.any fun user =>
          p.allowedRoleList.any fun role => user.roles.hasRole (Text.trimSpace role) [] then
        .ok ()
      else
        .error ⟨.permission, "voter " ++ voterID ++
          " is not authorized to vote on this task (allowed roles: " ++ p.allowedRoles ++
          ", allowed users: " ++ p.allowedUsers ++ ")"⟩

/-- `isRejected`: whether the votes cast so far fail the task. -/
def isRejected (approvals rejections : ℕ) (policy : Option ApprovalPolicy) : Bool :=
  if rejections = 0 then false
  else
    match policy with
    | none => true
    | some p =>
      if p.requireUnanimous then true
      else if p.allowedUserList.length = 0 then true
      else
        let remaining := p.allowedUserList.length - approvals - rejections
        decide (((approvals + remaining : ℕ) : ℤ) < p.minApprovals)

def minRequired (policy : Option ApprovalPolicy) : ℤ :=
  match policy with
  | some p => p.minApprovals
  | none => 1

/-! ## Votes -/

variable (db : Database)

/-- `CountVotes` for one decision. -/
def countVotes (taskExecutionID : String) (decision : ApprovalDecision) : ℕ :=
  db.votes.affected fun v => v.taskExecutionID == taskExecutionID && v.decision == decision

def hasVoted (taskExecutionID voterID : String) : Bool :=
  (db.votes.find? (taskExecutionID, voterID)).isSome

def validateVote (vote : ApprovalVote) : Except Error Unit :=
  if vote.taskExecutionID = "" then .error ⟨.validation, "task_execution_id is required"⟩
  else if vote.jobRequestID = "" then .error ⟨.validation, "job_request_id is required"⟩
  else if vote.voterID = "" then .error ⟨.validation, "voter_id is required"⟩
  else
    match vote.decision with
    | .other _ => .error ⟨.validation, "decision must be APPROVED or REJECTED"⟩
    | _ => .ok ()

/-- `SaveVote`: a second vote of the same voter on the same task execution is dropped. -/
def saveVote (vote : ApprovalVote) : Except Error Database := do
  validateVote vote
  return match db.votes.insert? vote with
    | some votes => { db with votes := votes }
    | none => db

/-- `GetVotes`, in the order in which they were cast. -/
def getVotes (taskExecutionID : String) : List ApprovalVote :=
  (db.votes.rows.filter fun v => v.taskExecutionID == taskExecutionID).insertionSort
    fun a b => a.votedAt ≤ b.votedAt

/-! ## Deciding a task -/

/-- The task rows of an execution that wait under the given type. -/
def waitingTask (execID : Option String) (taskType : String) (t : TaskExecution) : Bool :=
  some t.jobExecutionID == execID && t.taskType == taskType && t.taskState == manualApprovalRequired

/-- The request of the copy, if it still waits and the caller may write it. -/
def waitingRequest (qc : QueryContext) (request r : JobRequest) : Bool :=
  r.id == request.id && r.jobState == manualApprovalRequired &&
    qc.orgElseUserWhere false r.userID r.organizationID

def resolveDeadlines (taskExecutionID : String) : Table ApprovalDeadline.id :=
  db.deadlines.update (fun d => d.taskExecutionID == taskExecutionID && !d.resolved)
    (fun d => { d with resolved := true }) (fun _ => rfl)

def decisionMessage (verb decidedBy comments : String) : String :=
  let msg := verb ++ " by " ++ decidedBy
  if comments ≠ "" then msg ++ ": " ++ comments else msg

/-- `finalizeApproval`. The number of rows each statement touches is not looked at, and the
execution row is not written. -/
def finalizeApproval (qc : QueryContext) (request : JobRequest)
    (taskType taskExecutionID approvedBy comments : String) (now : Time) : Database :=
  { db with
    tasks := db.tasks.update (waitingTask request.jobExecutionID taskType) (fun t =>
        { t with
          taskState := completed
          exitCode := "APPROVED"
          exitMessage := decisionMessage "Approved" approvedBy comments
          comments := comments
          endedAt := some now
          updatedAt := now })
      (fun _ => rfl)
    requests := db.requests.update (waitingRequest qc request) (fun r =>
        { r with jobState := pending, errorCode := "", errorMessage := "", updatedAt := now })
      (fun _ => rfl)
    deadlines := resolveDeadlines db taskExecutionID }

/-- `finalizeRejection`, which also ends the execution. -/
def finalizeRejection (qc : QueryContext) (request : JobRequest)
    (taskType taskExecutionID rejectedBy comments userKey : String) (now : Time) : Database :=
  let msg := decisionMessage "Rejected" rejectedBy comments
  { db with
    tasks := db.tasks.update (waitingTask request.jobExecutionID taskType) (fun t =>
        { t with
          taskState := failed
          exitCode := "REJECTED"
          exitMessage := msg
          errorCode := "ERR_MANUAL_REJECTION"
          errorMessage := msg
          comments := comments
          endedAt := some now
          updatedAt := now })
      (fun _ => rfl)
    executions := db.executions.update
      (fun e => some e.id == request.jobExecutionID && e.jobState == manualApprovalRequired)
      (fun e =>
        { e with
          jobState := failed
          errorCode := "ERR_MANUAL_REJECTION"
          errorMessage := msg
          endedAt := some now
          updatedAt := now })
      (fun _ => rfl)
    requests := db.requests.update (waitingRequest qc request) (fun r =>
        { r with
          jobState := failed
          errorCode := "ERR_MANUAL_REJECTION"
          errorMessage := msg
          userKey := userKey
          updatedAt := now })
      (fun _ => rfl)
    deadlines := resolveDeadlines db taskExecutionID }

end Formicary.Approval

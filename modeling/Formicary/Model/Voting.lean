import Formicary.Library.Transition
import Formicary.Model.Approval

/-! # Casting votes

`CastVote` in the steps between which other calls can come, the calls it is made of when nothing
comes in between, the handler of breached deadlines with the sweep that finds them, and the
manager's entry point. -/

namespace Formicary.Approval

open RequestState

/-- The aggregate state of the approval of one task execution. -/
structure ApprovalStatus where
  taskExecutionID : String
  jobRequestID : String
  approvalsReceived : ℕ
  rejectionsReceived : ℕ
  minApprovalsRequired : ℤ
  quorumReached : Bool
  rejected : Bool
  votes : List ApprovalVote
  policy : Option ApprovalPolicy
  deriving DecidableEq, Repr

/-- The arguments of a `CastVote` call. The request is the caller's copy of the row. -/
structure VoteCall where
  qc : QueryContext
  request : JobRequest
  taskType : String
  taskExecutionID : String
  policy : Option ApprovalPolicy
  voterID : String
  voterName : String
  decision : ApprovalDecision
  comments : String

/-- What the environment supplies to a call: the clock, and the key a rejected request gets. -/
structure VoteClock where
  now : Time := 0
  userKey : String := ""
  deriving DecidableEq, Repr

namespace VoteCall

variable (call : VoteCall)

/-- The checks `CastVote` makes on its arguments alone. -/
def checkArguments : Except Error Unit :=
  if call.taskType = "" then .error ⟨.validation, "task_type is required"⟩
  else if call.taskExecutionID = "" then .error ⟨.validation, "task_execution_id is required"⟩
  else if call.voterID = "" then .error ⟨.validation, "voter_id is required"⟩
  else if call.decision ≠ .approved ∧ call.decision ≠ .rejected then
    .error ⟨.validation, "decision must be APPROVED or REJECTED"⟩
  else if call.request.jobState ≠ manualApprovalRequired then
    .error ⟨.conflict, "job request " ++ call.request.id ++ " is not awaiting approval (state: " ++
      call.request.jobState.name ++ ")"⟩
  else authorizeVoter call.qc call.policy call.voterID

def vote (now : Time) : ApprovalVote where
  taskExecutionID := call.taskExecutionID
  jobRequestID := call.request.id
  voterID := call.voterID
  voterName := call.voterName
  decision := call.decision
  comments := call.comments
  votedAt := now

def status (approvals rejections : ℕ) (votes : List ApprovalVote) : ApprovalStatus where
  taskExecutionID := call.taskExecutionID
  jobRequestID := call.request.id
  approvalsReceived := approvals
  rejectionsReceived := rejections
  minApprovalsRequired := minRequired call.policy
  quorumReached :=
    !isRejected approvals rejections call.policy && decide (minRequired call.policy ≤ approvals)
  rejected := isRejected approvals rejections call.policy
  votes := votes
  policy := call.policy

end VoteCall

/-- `GetStatus`, which counts every vote that is not an approval as a rejection. -/
def getStatus (db : Database) (taskExecutionID jobRequestID : String)
    (policy : Option ApprovalPolicy) : ApprovalStatus :=
  let votes := getVotes db taskExecutionID
  let approvals := votes.countP fun v => v.decision == .approved
  let rejections := votes.countP fun v => v.decision != .approved
  { taskExecutionID := taskExecutionID
    jobRequestID := jobRequestID
    approvalsReceived := approvals
    rejectionsReceived := rejections
    minApprovalsRequired := minRequired policy
    quorumReached := decide (minRequired policy ≤ approvals)
    rejected := isRejected approvals rejections policy
    votes := votes
    policy := policy }

/-! ## One call -/

variable (db : Database) (call : VoteCall) (c : VoteClock)

/-- The result of a call that ends before a vote is saved: its arguments are refused, the voter
has voted before, or a rejection comes without a comment. -/
def earlyResult : Option (Except Error ApprovalStatus) :=
  match call.checkArguments with
  | .error err => some (.error err)
  | .ok _ =>
    if hasVoted db call.taskExecutionID call.voterID then
      some (.ok (getStatus db call.taskExecutionID call.request.id call.policy))
    else if call.decision = .rejected ∧ Text.trimSpace call.comments = "" then
      some (.error ⟨.validation, "comments are required for rejection"⟩)
    else none

/-- How `CastVote` reports an error of `SaveVote`. -/
def recordError (err : Error) : Error :=
  { err with message := "failed to record vote: " ++ err.message }

/-- The decision of a call: a rejection comes before a quorum. -/
def settle (approvals rejections : ℕ) : Database :=
  if isRejected approvals rejections call.policy then
    finalizeRejection db call.qc call.request call.taskType call.taskExecutionID call.voterID
      call.comments c.userKey c.now
  else if minRequired call.policy ≤ approvals then
    finalizeApproval db call.qc call.request call.taskType call.taskExecutionID call.voterID
      call.comments c.now
  else db

/-- `CastVote` when nothing comes in between. -/
def castVote : Database × Except Error ApprovalStatus :=
  match earlyResult db call with
  | some result => (db, result)
  | none =>
    match saveVote db (call.vote c.now) with
    | .error err => (db, .error (recordError err))
    | .ok db =>
      let approvals := countVotes db call.taskExecutionID .approved
      let rejections := countVotes db call.taskExecutionID .rejected
      (settle db call c approvals rejections,
        .ok (call.status approvals rejections (getVotes db call.taskExecutionID)))

/-- Where a call is between its accesses to the database. -/
inductive VotePhase where
  | entered
  | unvoted
  | saved
  | counted (approvals rejections : ℕ)
  | listed (approvals rejections : ℕ) (votes : List ApprovalVote)
  | returned (result : Except Error ApprovalStatus)

/-- One access of a call to the database, with what leads up to the next one. -/
def advance : VotePhase → Database × VotePhase
  | .entered =>
    match earlyResult db call with
    | some result => (db, .returned result)
    | none => (db, .unvoted)
  | .unvoted =>
    match saveVote db (call.vote c.now) with
    | .error err => (db, .returned (.error (recordError err)))
    | .ok db => (db, .saved)
  | .saved =>
    (db, .counted (countVotes db call.taskExecutionID .approved)
      (countVotes db call.taskExecutionID .rejected))
  | .counted approvals rejections =>
    (db, .listed approvals rejections (getVotes db call.taskExecutionID))
  | .listed approvals rejections votes =>
    (settle db call c approvals rejections,
      .returned (.ok (call.status approvals rejections votes)))
  | .returned result => (db, .returned result)

/-! ## Breached deadlines -/

/-- A run of `HandleSLABreach`, with the copy of the request it was given. -/
structure SLABreach where
  qc : QueryContext
  deadline : ApprovalDeadline
  request : JobRequest
  taskType : String

variable (breach : SLABreach)

/-- The decision `HandleSLABreach` makes in place of the voters. -/
def timeOut : Database :=
  match breach.deadline.timeoutAction with
  | .autoApprove =>
    finalizeApproval db breach.qc breach.request breach.taskType breach.deadline.taskExecutionID
      syntheticVoterID "Auto-approved by SLA timeout" c.now
  | .autoReject =>
    finalizeRejection db breach.qc breach.request breach.taskType
      breach.deadline.taskExecutionID syntheticVoterID "Auto-rejected by SLA timeout" c.userKey
      c.now
  | _ => db

/-- `MarkDeadlineResolved`, or `MarkDeadlineEscalated` where nothing was decided. -/
def markDeadline : Database :=
  { db with
    deadlines := db.deadlines.update (fun d => d.id == breach.deadline.id) (fun d =>
        match breach.deadline.timeoutAction with
        | .autoApprove | .autoReject => { d with resolved := true }
        | _ => { d with escalated := true })
      (fun d => by cases breach.deadline.timeoutAction <;> rfl) }

def handleSLABreach : Database :=
  markDeadline (timeOut db c breach) breach

/-! ## The manager -/

/-- An `ApprovalVoteRequest`. -/
structure VoteRequest where
  requestID : String
  taskType : String
  voterID : String
  voterName : String
  decision : ApprovalDecision
  comments : String

def decisionName : ApprovalDecision → String
  | .approved => "APPROVED"
  | .rejected => "REJECTED"
  | .other text => text

/-- The lookups of `CastApprovalVote`. Policies come from the job definitions, which are not
modelled here. The task is looked up by its type only, and loading the execution may heal its
tasks. -/
def prepareVote (policies : QueryContext → JobRequest → String → Option ApprovalPolicy)
    (qc : QueryContext) (req : VoteRequest) : Database × Except Error VoteCall :=
  if req.decision ≠ .approved ∧ req.decision ≠ .rejected then
    (db, .error ⟨.validation, "decision must be APPROVED or REJECTED, got: " ++
      decisionName req.decision⟩)
  else
    match JobRequestRepository.get db qc req.requestID with
    | .error err =>
      (db, .error { err with
        message := "failed to get job request " ++ req.requestID ++ ": " ++ err.message })
    | .ok request =>
      let execID := request.jobExecutionID.getD ""
      match JobExecutionRepository.get db execID c.now with
      | .error err =>
        (db, .error { err with
          message := "failed to get job execution " ++ execID ++ ": " ++ err.message })
      | .ok (loaded, db) =>
        match loaded.tasks.find? fun t => t.taskType == req.taskType with
        | none =>
          (db, .error ⟨.notFound, "task " ++ req.taskType ++
            " not found in job execution " ++ execID⟩)
        | some task =>
          (db, .ok
            { qc := qc
              request := request
              taskType := req.taskType
              taskExecutionID := task.id
              policy := policies qc request req.taskType
              voterID := req.voterID
              voterName := req.voterName
              decision := req.decision
              comments := req.comments })

/-- `CastApprovalVote`, up to the audit record and the notification it sends at the end. -/
def castApprovalVote (policies : QueryContext → JobRequest → String → Option ApprovalPolicy)
    (qc : QueryContext) (req : VoteRequest) : Database × Except Error ApprovalStatus :=
  match prepareVote db c policies qc req with
  | (db, .error err) => (db, .error err)
  | (db, .ok call) => castVote db call c

/-! ## Calls and handlers side by side -/

inductive BreachPhase where
  | entered
  | decided
  | returned
  deriving DecidableEq, Repr

/-- The database, the votes being cast and the deadlines being handled. -/
structure Voting where
  db : Database
  calls : List (VoteCall × VotePhase)
  breaches : List (SLABreach × BreachPhase)

inductive VotingAction where
  | vote (i : ℕ) (c : VoteClock)
  | breach (i : ℕ) (c : VoteClock)
  deriving DecidableEq, Repr

namespace Voting

def step (s : Voting) : VotingAction → Option Voting
  | .vote i c =>
    match s.calls[i]? with
    | none => none
    | some (call, phase) =>
      let (db, phase) := advance s.db call c phase
      some { s with db := db, calls := s.calls.set i (call, phase) }
  | .breach i c =>
    match s.breaches[i]? with
    | some (breach, .entered) =>
      some { s with
        db := timeOut s.db c breach, breaches := s.breaches.set i (breach, .decided) }
    | some (breach, .decided) =>
      some { s with
        db := markDeadline s.db breach, breaches := s.breaches.set i (breach, .returned) }
    | _ => none

end Voting

/-- A request, its execution and one of its tasks, all waiting for approval. -/
structure Awaiting where
  request : JobRequest
  execution : JobExecution
  task : TaskExecution
  requestWaits : request.jobState = manualApprovalRequired
  executionWaits : execution.jobState = manualApprovalRequired
  taskWaits : task.taskState = manualApprovalRequired
  executes : request.jobExecutionID = some execution.id
  belongs : task.jobExecutionID = execution.id

namespace Voting

/-- The three rows are in the database, and every call and handler is about the task, has loaded
the request as it is, and has yet to do anything else. -/
structure Initial (a : Awaiting) (s : Voting) : Prop where
  request : s.db.requests.find? a.request.id = some a.request
  execution : s.db.executions.find? a.execution.id = some a.execution
  task : s.db.tasks.find? a.task.id = some a.task
  calls : ∀ p ∈ s.calls, p.1.request = a.request ∧ p.1.taskType = a.task.taskType ∧
    p.1.taskExecutionID = a.task.id ∧ p.2 = .entered
  breaches : ∀ p ∈ s.breaches, p.1.request = a.request ∧ p.1.taskType = a.task.taskType ∧
    p.1.deadline.taskExecutionID = a.task.id ∧ p.2 = .entered

def system (a : Awaiting) : TransitionSystem Voting VotingAction where
  init := Initial a
  step := step

end Voting

/-- `FindBreachedDeadlines`, the oldest deadline first. -/
def findBreachedDeadlines (db : Database) (now : Time) (limit : ℕ) : List ApprovalDeadline :=
  ((db.deadlines.rows.filter fun d => !d.resolved && !d.escalated && decide (d.deadline < now)
    ).insertionSort fun a b => a.deadline ≤ b.deadline).take limit

/-- The manager's `GetJobRequest`, which loads the execution along with the request. An execution
that cannot be loaded is only reported. -/
def getJobRequest (db : Database) (qc : QueryContext) (id : String) (now : Time) :
    Database × Except Error JobRequest :=
  match JobRequestRepository.get db qc id with
  | .error err => (db, .error err)
  | .ok request =>
    match request.jobExecutionID with
    | none => (db, .ok request)
    | some execID =>
      match JobExecutionRepository.get db execID now with
      | .error _ => (db, .ok request)
      | .ok (_, db) => (db, .ok request)

/-- The type of the task that a deadline is for, or nothing if it is not loaded. -/
def breachedTaskType (db : Database) (request : JobRequest) (deadline : ApprovalDeadline)
    (now : Time) : Database × String :=
  match JobExecutionRepository.get db (request.jobExecutionID.getD "") now with
  | .error _ => (db, "")
  | .ok (loaded, db) =>
    match loaded.tasks.find? fun t => t.id == deadline.taskExecutionID with
    | none => (db, "")
    | some task => (db, task.taskType)

def sweepContext : QueryContext := .newQueryContextFromIDs "" ""

/-- What the sweep does about one deadline. -/
def handleBreachedDeadline (db : Database) (c : VoteClock) (deadline : ApprovalDeadline) :
    Database :=
  match getJobRequest db sweepContext deadline.jobRequestID c.now with
  | (db, .error _) => db
  | (db, .ok request) =>
    let (db, taskType) := breachedTaskType db request deadline c.now
    handleSLABreach db c ⟨sweepContext, deadline, request, taskType⟩

/-- `checkApprovalSLABreaches`, with the clock for each of the deadlines that it finds. -/
def checkApprovalSLABreaches (db : Database) (now : Time) (clock : ApprovalDeadline → VoteClock) :
    Database :=
  (findBreachedDeadlines db now 100).foldl
    (fun db deadline => handleBreachedDeadline db (clock deadline) deadline) db

end Formicary.Approval

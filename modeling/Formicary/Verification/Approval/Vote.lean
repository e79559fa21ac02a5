import Formicary.Model.Voting

/-! # What a vote does

A call that nothing interrupts saves its vote and then settles the matter by the votes there are. -/

namespace Formicary.Approval

open RequestState Table

variable {db db' : Database} {call : VoteCall} {c : VoteClock}

inductive Verdict where
  | approve
  | reject
  deriving DecidableEq, Repr

namespace Verdict

def requestState : Verdict → RequestState
  | approve => pending
  | reject => failed

def taskState : Verdict → RequestState
  | approve => completed
  | reject => failed

end Verdict

def VoteCall.judge (call : VoteCall) (approvals rejections : ℕ) : Option Verdict :=
  if isRejected approvals rejections call.policy then some .reject
  else if minRequired call.policy ≤ approvals then some .approve
  else none

def tally (db : Database) (call : VoteCall) (decision : ApprovalDecision) : ℕ :=
  countVotes db call.taskExecutionID decision + if call.decision = decision then 1 else 0

def decides (db : Database) (call : VoteCall) : Option Verdict :=
  match earlyResult db call with
  | some _ => none
  | none => call.judge (tally db call .approved) (tally db call .rejected)

theorem saveVote_tables {vote : ApprovalVote} (h : saveVote db vote = .ok db') :
    db'.requests = db.requests ∧ db'.executions = db.executions ∧ db'.tasks = db.tasks := by
  cases hv : validateVote vote with
  | error => simp [saveVote, hv, bind, Except.bind] at h
  | ok =>
    simp only [saveVote, hv, bind, Except.bind, pure, Except.pure, Except.ok.injEq] at h
    subst h
    split <;> simp

/-- The arguments of a call that gets as far as saving its vote. -/
structure Accepted (db : Database) (call : VoteCall) : Prop where
  typed : call.taskExecutionID ≠ ""
  voter : call.voterID ≠ ""
  decision : call.decision = .approved ∨ call.decision = .rejected
  waits : call.request.jobState = manualApprovalRequired
  authorized : authorizeVoter call.qc call.policy call.voterID = .ok ()
  fresh : hasVoted db call.taskExecutionID call.voterID = false

theorem earlyResult_eq_none (h : earlyResult db call = none) : Accepted db call := by
  unfold earlyResult at h
  split at h
  · cases h
  next hargs =>
  have hvoted : hasVoted db call.taskExecutionID call.voterID = false := by
    by_contra hv
    rw [Bool.not_eq_false] at hv
    simp [hv] at h
  unfold VoteCall.checkArguments at hargs
  split_ifs at hargs with h₁ h₂ h₃ h₄ h₅
  refine ⟨h₂, h₃, ?_, by simpa using h₅, hargs, hvoted⟩
  by_contra hd
  exact h₄ (not_or.mp hd)

theorem Accepted.rows (h : Accepted db call) (hs : saveVote db (call.vote c.now) = .ok db') :
    db'.votes.rows = call.vote c.now :: db.votes.rows := by
  have hfresh : ApprovalVote.key (call.vote c.now) ∉ db.votes.rows.map ApprovalVote.key := by
    have hnone : db.votes.find? (call.taskExecutionID, call.voterID) = none := by
      simpa [hasVoted] using h.fresh
    intro hmem
    obtain ⟨v, hv, hk⟩ := List.mem_map.mp hmem
    exact find?_eq_none_iff.mp hnone v hv hk
  cases hv : validateVote (call.vote c.now) with
  | error => simp [saveVote, hv, bind, Except.bind] at hs
  | ok =>
    simp only [saveVote, hv, bind, Except.bind, pure, Except.pure, Except.ok.injEq,
      insert?, hfresh, dite_false] at hs
    rw [← hs]

theorem Accepted.saveVote_ok (h : Accepted db call) (hid : call.request.id ≠ "") :
    ∃ db', saveVote db (call.vote c.now) = .ok db' := by
  have hvalid : validateVote (call.vote c.now) = .ok () := by
    rcases h.decision with hd | hd <;> simp [validateVote, VoteCall.vote, h.typed, h.voter, hid, hd]
  exact ⟨_, by rw [saveVote, hvalid]; rfl⟩

theorem countVotes_saved {decision : ApprovalDecision}
    (h : db'.votes.rows = call.vote c.now :: db.votes.rows) :
    countVotes db' call.taskExecutionID decision = tally db call decision := by
  simp [countVotes, tally, affected, h, List.countP_cons, VoteCall.vote]

/-- What committing a verdict, or none, does to the database. -/
inductive Commits (request : JobRequest) (taskType taskExecutionID : String)
    (db db' : Database) : Option (Verdict × QueryContext) → Prop where
  | nothing (hr : db'.requests = db.requests) (he : db'.executions = db.executions)
      (ht : db'.tasks = db.tasks) : Commits request taskType taskExecutionID db db' none
  | approve (qc : QueryContext) (decidedBy comments : String) (now : Time)
      (h : db' = finalizeApproval db qc request taskType taskExecutionID decidedBy comments now) :
      Commits request taskType taskExecutionID db db' (some (.approve, qc))
  | reject (qc : QueryContext) (decidedBy comments userKey : String) (now : Time)
      (h : db' = finalizeRejection db qc request taskType taskExecutionID decidedBy comments
        userKey now) : Commits request taskType taskExecutionID db db' (some (.reject, qc))

section Commits

variable {request : JobRequest} {taskType taskExecutionID : String} {v : Verdict}
  {qc : QueryContext}

section Decided

variable (h : Commits request taskType taskExecutionID db db' (some (v, qc)))
include h

theorem Commits.request_of_writable (hr : db.requests.find? request.id = some request)
    (hwait : request.jobState = manualApprovalRequired)
    (hw : qc.orgElseUserWhere false request.userID request.organizationID = true) :
    (db'.requests.find? request.id).map JobRequest.jobState = some v.requestState := by
  have hsel : waitingRequest qc request request = true := by simp [waitingRequest, hwait, hw]
  cases h with
  | approve _ _ _ _ h | reject _ _ _ _ _ h =>
    simp [h, finalizeApproval, finalizeRejection, find?_update, hr, hsel, Verdict.requestState]

theorem Commits.request_of_not_writable (hr : db.requests.find? request.id = some request)
    (hw : qc.orgElseUserWhere false request.userID request.organizationID = false) :
    db'.requests.find? request.id = some request := by
  have hsel : waitingRequest qc request request = false := by simp [waitingRequest, hw]
  cases h with
  | approve _ _ _ _ h | reject _ _ _ _ _ h =>
    simp [h, finalizeApproval, finalizeRejection, find?_update, hr, hsel]

theorem Commits.task_of_waiting {t : TaskExecution} (ht : db.tasks.find? t.id = some t)
    (hsel : waitingTask request.jobExecutionID taskType t) :
    (db'.tasks.find? t.id).map TaskExecution.taskState = some v.taskState := by
  cases h with
  | approve _ _ _ _ h | reject _ _ _ _ _ h =>
    simp [h, finalizeApproval, finalizeRejection, find?_update, ht, hsel, Verdict.taskState]

end Decided

variable {verdict : Option (Verdict × QueryContext)}
  (h : Commits request taskType taskExecutionID db db' verdict)
include h

theorem Commits.references : ∀ r' ∈ db'.requests, ∃ r ∈ db.requests,
      r.id = r'.id ∧ r.jobExecutionID = r'.jobExecutionID := by
  intro r' hr'
  cases h with
  | nothing hr => exact ⟨r', hr ▸ hr', rfl, rfl⟩
  | approve _ _ _ _ h | reject _ _ _ _ _ h =>
    subst h
    obtain ⟨r, hr, rfl⟩ := List.mem_map.mp hr'
    exact ⟨r, hr, by split <;> rfl, by split <;> rfl⟩

theorem Commits.task_execution (k : String) : (db'.tasks.find? k).map TaskExecution.jobExecutionID =
      (db.tasks.find? k).map TaskExecution.jobExecutionID := by
  cases h with
  | nothing _ _ ht => rw [ht]
  | approve _ _ _ _ h | reject _ _ _ _ _ h =>
    simp only [h, finalizeApproval, finalizeRejection, find?_update, Option.map_map]
    congr 1
    funext t
    simp only [Function.comp]
    split <;> rfl

end Commits

theorem settle_commits (approvals rejections : ℕ) :
    Commits call.request call.taskType call.taskExecutionID db
      (settle db call c approvals rejections)
      ((call.judge approvals rejections).map fun v => (v, call.qc)) := by
  unfold settle VoteCall.judge
  split
  · exact .reject _ _ _ _ _ rfl
  split
  · exact .approve _ _ _ _ rfl
  · exact .nothing rfl rfl rfl

theorem castVote_commits (db : Database) (c : VoteClock) (hid : call.request.id ≠ "") :
    ∃ saved : Database, saved.requests = db.requests ∧ saved.tasks = db.tasks ∧
      Commits call.request call.taskType call.taskExecutionID saved (castVote db call c).1
        ((decides db call).map fun v => (v, call.qc)) := by
  unfold decides castVote
  cases hearly : earlyResult db call with
  | some => exact ⟨db, rfl, rfl, .nothing rfl rfl rfl⟩
  | none =>
    have hacc := earlyResult_eq_none hearly
    obtain ⟨saved, hsave⟩ := hacc.saveVote_ok (c := c) hid
    obtain ⟨hr, -, ht⟩ := saveVote_tables hsave
    refine ⟨saved, hr, ht, ?_⟩
    simp only [hsave, countVotes_saved (hacc.rows hsave)]
    exact settle_commits _ _

theorem advance_iterate_eq_castVote :
    (fun s : Database × VotePhase => advance s.1 call c s.2)^[5] (db, .entered) =
      ((castVote db call c).1, .returned (castVote db call c).2) := by
  cases hearly : earlyResult db call with
  | some => simp [advance, castVote, hearly]
  | none =>
    cases hsave : saveVote db (call.vote c.now) with
    | error | ok => simp [advance, castVote, hearly, hsave]

def review : Awaiting where
  request :=
    { id := "r1", jobType := "build", jobVersion := "", userID := "u1", organizationID := "o1"
      jobDefinitionID := "d1", jobState := manualApprovalRequired, jobExecutionID := some "e1"
      lastJobExecutionID := none, userKey := "k1", jobPriority := 0, scheduleAttempts := 0
      retried := 0, pausedCount := 0, hardRestart := false, currentTask := "review"
      errorCode := "", errorMessage := "", scheduledAt := 0, updatedAt := 0 }
  execution :=
    { id := "e1", jobRequestID := "r1", jobType := "build", jobVersion := "", userID := "u1"
      organizationID := "o1", jobState := manualApprovalRequired, currentTask := "review"
      errorCode := "", errorMessage := "", startedAt := 0, endedAt := none, updatedAt := 0
      cpuSecs := 0, active := true }
  task :=
    { id := "t1", jobExecutionID := "e1", taskType := "review"
      taskState := manualApprovalRequired, allowFailure := false, exitCode := "AWAITING_APPROVAL"
      exitMessage := "", errorCode := "", errorMessage := "", comments := "", taskOrder := 1
      endedAt := none, updatedAt := 0, active := true }
  requestWaits := rfl
  executionWaits := rfl
  taskWaits := rfl
  executes := rfl
  belongs := rfl

def Awaiting.database (a : Awaiting) : Database :=
  { Database.empty with
    requests := ⟨[a.request], by simp⟩
    executions := ⟨[a.execution], by simp⟩
    tasks := ⟨[a.task], by simp⟩ }

def policyOver (allowedUsers : String) (minApprovals : ℤ) (requireUnanimous : Bool) :
    ApprovalPolicy where
  minApprovals := minApprovals
  allowedRoles := ""
  allowedUsers := allowedUsers
  requireUnanimous := requireUnanimous
  slaDeadline := 0
  timeoutAction := .unspecified
  escalationRecipients := ""

def voteBy (policy : ApprovalPolicy) (caller voterID : String) (decision : ApprovalDecision)
    (comments : String) : VoteCall where
  qc := .newQueryContextFromIDs caller "o1"
  request := review.request
  taskType := "review"
  taskExecutionID := "t1"
  policy := some policy
  voterID := voterID
  voterName := voterID
  decision := decision
  comments := comments

end Formicary.Approval

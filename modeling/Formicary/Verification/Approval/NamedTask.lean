import Formicary.Verification.Approval.Vote
import Formicary.Verification.Execution.Loading

/-! # The task a vote names

The manager finds the task of a vote by its type alone, and the votes that are counted are those on
that task. -/

namespace Formicary.Approval

open RequestState Option Table

/-- One `CastApprovalVote` request. -/
structure Ballot where
  qc : QueryContext
  req : VoteRequest
  clock : VoteClock

namespace Ballot

variable (policies : QueryContext → JobRequest → String → Option ApprovalPolicy)

def cast (db : Database) (b : Ballot) : Database :=
  (castApprovalVote db b.clock policies b.qc b.req).1

/-- Requests handled one after the other, from any database. -/
def system : TransitionSystem Database Ballot where
  init _ := True
  step db b := some (cast policies db b)

def namedTask (db : Database) (b : Ballot) : Option TaskExecution :=
  match (prepareVote db b.clock policies b.qc b.req).2 with
  | .ok call => db.tasks.find? call.taskExecutionID
  | .error _ => none

def requestState (db : Database) (b : Ballot) : Option RequestState :=
  (db.requests.find? b.req.requestID).map JobRequest.jobState

def taskState (db : Database) (t : TaskExecution) : Option RequestState :=
  (db.tasks.find? t.id).map TaskExecution.taskState

/-- If the ballot releases or fails the waiting request, then through the task it names. -/
def ThroughNamedTask (db : Database) (b : Ballot) : Prop :=
  requestState db b = some manualApprovalRequired →
    (requestState (cast policies db b) b = some pending →
      ∃ t ∈ namedTask policies db b, t.taskState = manualApprovalRequired ∧
        taskState (cast policies db b) t = some completed) ∧
    (requestState (cast policies db b) b = some failed →
      ∃ t ∈ namedTask policies db b, t.taskState = manualApprovalRequired ∧
        taskState (cast policies db b) t = some failed)

def deciding (db : Database) (b : Ballot) : Bool :=
  match prepareVote db b.clock policies b.qc b.req with
  | (healed, .ok call) =>
    (decides healed call).isSome &&
      b.qc.orgElseUserWhere false call.request.userID call.request.organizationID
  | (_, .error _) => false

/-- A ballot that decides the matter names a task that waits. -/
def NamesWaitingTask (db : Database) (b : Ballot) : Prop :=
  deciding policies db b = true →
    (namedTask policies db b).any (fun t => t.taskState == manualApprovalRequired) = true

variable {policies} {db db' : Database} {b : Ballot} {call : VoteCall}

/-- What the manager has found, and what it has left of the tables, when it goes on to vote. -/
structure Prepared (db : Database) (b : Ballot) (healed : Database) (call : VoteCall) : Prop where
  context : call.qc = b.qc
  request : db.requests.find? b.req.requestID = some call.request
  requestID : call.request.id ≠ ""
  task : ∃ t, db.tasks.find? call.taskExecutionID = some t ∧ t.taskType = call.taskType ∧
    some t.jobExecutionID = call.request.jobExecutionID
  requests : healed.requests = db.requests
  tasks : ∀ k t, db.tasks.find? k = some t → ∃ t', healed.tasks.find? k = some t' ∧
    t'.taskState = t.taskState ∧ t'.taskType = t.taskType ∧ t'.jobExecutionID = t.jobExecutionID

theorem get_spec {execID : String} {now : Time} {loaded : JobExecutionRepository.LoadedExecution}
    (h : JobExecutionRepository.get db execID now = .ok (loaded, db')) :
    execID ≠ "" ∧ db'.requests = db.requests ∧
      (∀ t ∈ loaded.tasks, t ∈ db.tasks ∧ t.jobExecutionID = execID) ∧
      ∀ k t, db.tasks.find? k = some t → ∃ t', db'.tasks.find? k = some t' ∧
        t'.taskState = t.taskState ∧ t'.taskType = t.taskType ∧
        t'.jobExecutionID = t.jobExecutionID := by
  have hload := JobExecutionRepository.get_eq_ok.mp h
  refine ⟨hload.named, by rw [hload.tables], fun t ht => ?_, fun k t ht => ?_⟩
  · exact hload.mem_tasks ht
  · rw [hload.tables]
    refine ⟨_, by rw [find?_update, ht]; rfl, ?_⟩
    dsimp only
    split <;> exact ⟨rfl, rfl, rfl⟩

theorem prepareVote_spec {healed : Database}
    (h : prepareVote db b.clock policies b.qc b.req = (healed, .ok call)) :
    Prepared db b healed call := by
  unfold prepareVote at h
  split at h
  · cases h
  split at h
  · cases h
  next request hreq =>
  obtain ⟨hne, hfound, -⟩ := JobRequestRepository.request_of_get hreq
  dsimp only at h
  split at h
  · cases h
  next loaded healed' hget =>
  obtain ⟨hexec, hreqs, hload, htasks⟩ := get_spec hget
  split at h <;> cases h
  next task hfind =>
  obtain ⟨hmem, heid⟩ := hload task (List.mem_of_find?_eq_some hfind)
  have hid : request.id = b.req.requestID :=
    (find?_eq_some_iff.mp hfound).2
  have hsome : some (request.jobExecutionID.getD "") = request.jobExecutionID := by
    cases hx : request.jobExecutionID with
    | none => simp [hx] at hexec
    | some => rfl
  exact
    { context := rfl
      request := hfound
      requestID := hid ▸ hne
      task := ⟨task, find?_eq_some_iff.mpr ⟨hmem, rfl⟩,
        by simpa using List.find?_some hfind, by rw [heid]; exact hsome⟩
      requests := hreqs
      tasks := htasks }

theorem prepareVote_requests :
    (prepareVote db b.clock policies b.qc b.req).1.requests = db.requests := by
  unfold prepareVote
  split
  · rfl
  split
  · rfl
  dsimp only
  split
  · rfl
  next hget =>
  obtain ⟨-, hreqs, -⟩ := get_spec hget
  split <;> exact hreqs

theorem requestState_of_not_deciding (h : deciding policies db b = false) :
    requestState (cast policies db b) b = requestState db b := by
  have hreqs : (prepareVote db b.clock policies b.qc b.req).1.requests = db.requests :=
    prepareVote_requests
  unfold deciding at h
  unfold cast castApprovalVote requestState
  rcases hprep : prepareVote db b.clock policies b.qc b.req with ⟨healed, _ | call⟩
  · rw [hprep] at hreqs
    rw [hreqs]
  have hp := prepareVote_spec hprep
  obtain ⟨saved, hr, -, hc⟩ := castVote_commits healed b.clock hp.requestID
  have hid : call.request.id = b.req.requestID := (find?_eq_some_iff.mp hp.request).2
  rw [hprep] at h
  simp only
  cases hd : decides healed call with
  | none =>
    rw [hd] at hc
    cases hc with
    | nothing hr' => rw [hr', hr, hp.requests]
  | some =>
    simp only [hd, isSome_some, Bool.true_and, ← hp.context] at h
    rw [hd] at hc
    have hrow : saved.requests.find? call.request.id = some call.request := by
      rw [hr, hp.requests, hid, hp.request]
    rw [← hid, hc.request_of_not_writable hrow h, hid, hp.request]

theorem cast_of_deciding (h : deciding policies db b = true) :
    ∃ v : Verdict, ∃ t, requestState db b = some manualApprovalRequired ∧
      requestState (cast policies db b) b = some v.requestState ∧ namedTask policies db b = some t ∧
      (t.taskState = manualApprovalRequired →
        taskState (cast policies db b) t = some v.taskState) := by
  unfold deciding at h
  unfold cast castApprovalVote requestState namedTask taskState
  rcases hprep : prepareVote db b.clock policies b.qc b.req with ⟨healed, _ | call⟩
  · simp [hprep] at h
  have hp := prepareVote_spec hprep
  obtain ⟨saved, hr, ht, hc⟩ := castVote_commits healed b.clock hp.requestID
  have hid : call.request.id = b.req.requestID := (find?_eq_some_iff.mp hp.request).2
  simp only [hprep, Bool.and_eq_true] at h
  rw [← hp.context] at h
  obtain ⟨v, hv⟩ := isSome_iff_exists.mp h.1
  have hwait : call.request.jobState = manualApprovalRequired := by
    unfold decides at hv
    split at hv
    · cases hv
    · next hearly => exact (earlyResult_eq_none hearly).waits
  have hrow : saved.requests.find? call.request.id = some call.request := by
    rw [hr, hp.requests, hid, hp.request]
  obtain ⟨t, htask, htype, hexec⟩ := hp.task
  obtain ⟨t', ht', hstate, htype', hexec'⟩ := hp.tasks _ t htask
  have htid : t.id = call.taskExecutionID := (find?_eq_some_iff.mp htask).2
  have htid' : t'.id = call.taskExecutionID := (find?_eq_some_iff.mp ht').2
  rw [hv] at hc
  refine ⟨v, t, by simp [hp.request, hwait], ?_, htask, fun hw => ?_⟩
  · rw [← hid]
    exact hc.request_of_writable hrow hwait h.2
  · rw [htid, ← htid']
    apply hc.task_of_waiting
    · rw [ht, htid', ht']
    · simp [waitingTask, hexec', hexec, htype', htype, hstate, hw]

theorem throughNamedTask_iff : ThroughNamedTask policies db b ↔ NamesWaitingTask policies db b := by
  unfold ThroughNamedTask NamesWaitingTask
  cases hd : deciding policies db b with
  | false =>
    rw [requestState_of_not_deciding hd]
    simp +contextual
  | true =>
    obtain ⟨v, t, hwait, hstate, hnamed, htask⟩ := cast_of_deciding hd
    simp only [hwait, hstate, hnamed, forall_const, any_some, beq_iff_eq,
      mem_def, some.injEq, exists_eq_left']
    constructor
    · intro h
      cases v with
      | approve => exact (h.1 rfl).1
      | reject => exact (h.2 rfl).1
    · intro hw
      cases v with
      | approve => exact ⟨fun _ => ⟨hw, htask hw⟩, by simp [Verdict.requestState]⟩
      | reject => exact ⟨by simp [Verdict.requestState], fun _ => ⟨hw, htask hw⟩⟩

/-- In any sequence of ballots every one goes through the task it names exactly if every one that
decides names a task that waits. -/
theorem throughNamedTask_iff_namesWaitingTask (db : Database) (ballots : List Ballot) :
    (system policies).Meets (ThroughNamedTask policies) db ballots ↔
      (system policies).Meets (NamesWaitingTask policies) db ballots :=
  TransitionSystem.meets_congr (fun _ _ => throughNamedTask_iff) db ballots

def twoStages : Database :=
  { review.database with
    tasks := ⟨[{ review.task with id := "t0", taskType := "build", taskState := completed },
      review.task], by decide⟩ }

def approves (voterID taskType : String) : Ballot where
  qc := .newQueryContextFromIDs voterID "o1"
  req := ⟨"r1", taskType, voterID, voterID, .approved, ""⟩
  clock := {}

theorem released_by_completed_task :
    ¬ ∀ policies db ballots, (system policies).Meets (ThroughNamedTask policies) db ballots := by
  intro h
  have hb := (h (fun _ _ _ => some (policyOver "" 1 false)) twoStages [approves "bob" "build"] _
    rfl).1
  obtain ⟨t, ht, hwait, -⟩ := (hb (by decide)).1 (by decide)
  have hnone : (namedTask (fun _ _ _ => some (policyOver "" 1 false)) twoStages
      (approves "bob" "build")).all (fun t => t.taskState == completed) = true := by decide
  rw [mem_def.mp ht] at hnone
  simp [hwait] at hnone

end Ballot

end Formicary.Approval

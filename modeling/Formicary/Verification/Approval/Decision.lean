import Formicary.Verification.Approval.Vote

/-! # An approval decision is made once

A decision moves the task, the execution and the request in one transaction, but each row is guarded
by its own state only. -/

namespace Formicary.Approval

open RequestState Table JobRequest Option

namespace Voting

/-- The outcomes of an approval: the job goes on, it has failed, or nothing has changed. -/
def AllOrNothing (a : Awaiting) (s : Voting) : Prop :=
  ∃ r e t, s.db.requests.find? a.request.id = some r ∧
    s.db.executions.find? a.execution.id = some e ∧ s.db.tasks.find? a.task.id = some t ∧
    ((t.taskState = completed ∧ r.jobState = pending ∧ e.jobState.isTerminal = false) ∨
      (t.taskState = failed ∧ e.jobState = failed ∧ r.jobState = failed) ∨
      (r = a.request ∧ e = a.execution ∧ t = a.task))

def verdict (s : Voting) : VotingAction → Option (Verdict × QueryContext)
  | .vote i _ =>
    match s.calls[i]? with
    | some (call, .listed approvals rejections _) =>
      (call.judge approvals rejections).map fun v => (v, call.qc)
    | _ => none
  | .breach i _ =>
    match s.breaches[i]? with
    | some (breach, .entered) =>
      match breach.deadline.timeoutAction with
      | .autoApprove => some (.approve, breach.qc)
      | .autoReject => some (.reject, breach.qc)
      | _ => none
    | _ => none

def requestState (a : Awaiting) (s : Voting) : Option RequestState :=
  (s.db.requests.find? a.request.id).map jobState

def writable (a : Awaiting) (qc : QueryContext) : Bool :=
  qc.orgElseUserWhere false a.request.userID a.request.organizationID

def InOrder (a : Awaiting) (s : Voting) (action : VotingAction) : Prop :=
  match verdict s action with
  | none => True
  | some (.approve, qc) =>
    requestState a s = some manualApprovalRequired → writable a qc = true
  | some (.reject, qc) =>
    (requestState a s = some manualApprovalRequired → writable a qc = true) ∧
      requestState a s ≠ some pending

instance (a : Awaiting) (s : Voting) (action : VotingAction) : Decidable (InOrder a s action) := by
  unfold InOrder
  split <;> infer_instance

/-- The abstract states of a wait for approval, by the rows that show them. -/
inductive Stage (a : Awaiting) (db : Database) : Prop where
  | undecided (hr : db.requests.find? a.request.id = some a.request)
      (he : db.executions.find? a.execution.id = some a.execution)
      (ht : db.tasks.find? a.task.id = some a.task)
  | approved {r : JobRequest} {t : TaskExecution}
      (hr : db.requests.find? a.request.id = some r) (hpending : r.jobState = pending)
      (he : db.executions.find? a.execution.id = some a.execution)
      (ht : db.tasks.find? a.task.id = some t) (hcompleted : t.taskState = completed)
  | rejected {r : JobRequest} {e : JobExecution} {t : TaskExecution}
      (hr : db.requests.find? a.request.id = some r) (hrequest : r.jobState = failed)
      (he : db.executions.find? a.execution.id = some e) (hexecution : e.jobState = failed)
      (ht : db.tasks.find? a.task.id = some t) (htask : t.taskState = failed)

variable {a : Awaiting} {db db' : Database} {s : Voting}

theorem Stage.allOrNothing (h : Stage a s.db) : AllOrNothing a s := by
  cases h with
  | undecided hr he ht => exact ⟨_, _, _, hr, he, ht, .inr (.inr ⟨rfl, rfl, rfl⟩)⟩
  | approved hr hpend he ht hdone =>
    refine ⟨_, _, _, hr, he, ht, .inl ⟨hdone, hpend, ?_⟩⟩
    simp [a.executionWaits, isTerminal]
  | rejected hr hreq he hex ht htask =>
    exact ⟨_, _, _, hr, he, ht, .inr (.inl ⟨htask, hex, hreq⟩)⟩

theorem Stage.of_tables (h : Stage a db) (hr : db'.requests = db.requests)
    (he : db'.executions = db.executions) (ht : db'.tasks = db.tasks) : Stage a db' := by
  cases h with
  | undecided h₁ h₂ h₃ => exact .undecided (hr ▸ h₁) (he ▸ h₂) (ht ▸ h₃)
  | approved h₁ hp h₂ h₃ hc => exact .approved (hr ▸ h₁) hp (he ▸ h₂) (ht ▸ h₃) hc
  | rejected h₁ h₂ h₃ h₄ h₅ h₆ => exact .rejected (hr ▸ h₁) h₂ (he ▸ h₃) h₄ (ht ▸ h₅) h₆

theorem waitingTask_task : waitingTask a.request.jobExecutionID a.task.taskType a.task = true := by
  simp [waitingTask, a.executes, a.belongs, a.taskWaits]

theorem waitingTask_of_ne {execID : Option String} {taskType : String} {t : TaskExecution}
    (h : t.taskState ≠ manualApprovalRequired) : waitingTask execID taskType t = false := by
  simp [waitingTask, h]

theorem waitingRequest_request (qc : QueryContext) :
    waitingRequest qc a.request a.request = writable a qc := by
  simp [waitingRequest, writable, a.requestWaits]

theorem waitingRequest_of_ne {qc : QueryContext} {request r : JobRequest}
    (h : r.jobState ≠ manualApprovalRequired) : waitingRequest qc request r = false := by
  simp [waitingRequest, h]

variable {qc : QueryContext} {decidedBy comments userKey : String} {now : Time}

theorem Stage.approve (h : Stage a db)
    (hw : (db.requests.find? a.request.id).map jobState = some manualApprovalRequired →
      writable a qc = true) :
    Stage a (finalizeApproval db qc a.request a.task.taskType a.task.id decidedBy comments
      now) := by
  cases h with
  | undecided hr he ht =>
    have hwrite := hw (by simp [hr, a.requestWaits])
    exact .approved
      (find?_update_of_pos hr (by rw [waitingRequest_request, hwrite]))
      rfl he (find?_update_of_pos ht waitingTask_task) rfl
  | approved hr hpend he ht hdone =>
    exact .approved
      (find?_update_of_neg hr (waitingRequest_of_ne (by simp [hpend]))) hpend he
      (find?_update_of_neg ht (waitingTask_of_ne (by simp [hdone]))) hdone
  | rejected hr hreq he hex ht htask =>
    exact .rejected
      (find?_update_of_neg hr (waitingRequest_of_ne (by simp [hreq]))) hreq he hex
      (find?_update_of_neg ht (waitingTask_of_ne (by simp [htask]))) htask

theorem not_allOrNothing_approve (h : Stage a db)
    (hwait : (db.requests.find? a.request.id).map jobState =
      some manualApprovalRequired) (hw : writable a qc = false)
    (hs : s.db = finalizeApproval db qc a.request a.task.taskType a.task.id decidedBy comments
      now) : ¬ AllOrNothing a s := by
  cases h with
  | undecided hr he ht =>
    rintro ⟨r, e, t, hr', he', ht', hcase⟩
    have hr'' : s.db.requests.find? a.request.id = some a.request := by
      rw [hs]
      exact find?_update_of_neg hr (by rw [waitingRequest_request, hw])
    have ht'' : (s.db.tasks.find? a.task.id).map TaskExecution.taskState = some completed := by
      simp [hs, finalizeApproval, find?_update, ht, waitingTask_task]
    simp only [hr', some.injEq] at hr''
    simp only [ht', map_some, some.injEq] at ht''
    rcases hcase with h | h | h
    · simp [hr'', a.requestWaits] at h
    · simp [ht''] at h
    · simp [h.2.2, a.taskWaits] at ht''
  | approved hr hpend => simp [hr, hpend] at hwait
  | rejected hr hreq => simp [hr, hreq] at hwait

theorem Stage.reject (h : Stage a db)
    (hw : (db.requests.find? a.request.id).map jobState = some manualApprovalRequired →
      writable a qc = true)
    (hnot : (db.requests.find? a.request.id).map jobState ≠ some pending) :
    Stage a (finalizeRejection db qc a.request a.task.taskType a.task.id decidedBy comments userKey
      now) := by
  cases h with
  | undecided hr he ht =>
    have hwrite := hw (by simp [hr, a.requestWaits])
    exact .rejected
      (find?_update_of_pos hr (by rw [waitingRequest_request, hwrite])) rfl
      (find?_update_of_pos he (by simp [a.executes, a.executionWaits])) rfl
      (find?_update_of_pos ht waitingTask_task) rfl
  | approved hr hpend => simp [hr, hpend] at hnot
  | rejected hr hreq he hex ht htask =>
    exact .rejected
      (find?_update_of_neg hr (waitingRequest_of_ne (by simp [hreq])))
      hreq (find?_update_of_neg he (by simp [hex])) hex
      (find?_update_of_neg ht (waitingTask_of_ne (by simp [htask]))) htask

theorem not_allOrNothing_reject (h : Stage a db)
    (hbad : (db.requests.find? a.request.id).map jobState =
        some manualApprovalRequired ∧ writable a qc = false ∨
      (db.requests.find? a.request.id).map jobState = some pending)
    (hs : s.db = finalizeRejection db qc a.request a.task.taskType a.task.id decidedBy comments
      userKey now) : ¬ AllOrNothing a s := by
  rintro ⟨r, e, t, hr', he', ht', hcase⟩
  have hfail : e.jobState = failed := by
    have hexec : db.executions.find? a.execution.id = some a.execution := by
      cases h with
      | undecided _ he | approved _ _ he => exact he
      | rejected hr hreq => simp [hr, hreq] at hbad
    have he'' : (s.db.executions.find? a.execution.id).map JobExecution.jobState = some failed := by
      simp [hs, finalizeRejection, find?_update, hexec, a.executes, a.executionWaits]
    simpa [he'] using he''
  have hreq : r.jobState ≠ failed := by
    rcases hbad with ⟨hwait, hw⟩ | hpend
    · cases h with
      | undecided hr =>
        have hr'' : s.db.requests.find? a.request.id = some a.request := by
          rw [hs]
          exact find?_update_of_neg hr (by rw [waitingRequest_request, hw])
        simp only [hr', some.injEq] at hr''
        simp [hr'', a.requestWaits]
      | approved hr hpend => simp [hr, hpend] at hwait
      | rejected hr hreq => simp [hr, hreq] at hwait
    · obtain ⟨r₀, hr₀, hstate⟩ := map_eq_some_iff.mp hpend
      have hr'' : s.db.requests.find? a.request.id = some r₀ := by
        rw [hs]
        exact find?_update_of_neg hr₀ (waitingRequest_of_ne (by simp [hstate]))
      simp only [hr', some.injEq] at hr''
      simp [hr'', hstate]
  rcases hcase with h | h | h
  · simp [hfail, isTerminal] at h
  · exact hreq h.2.2
  · simp [h.2.1, a.executionWaits] at hfail

/-- The rows are in one of the three stages, and every call and handler is about them. -/
structure Inv (a : Awaiting) (s : Voting) : Prop where
  stage : Stage a s.db
  calls : ∀ p ∈ s.calls, p.1.request = a.request ∧ p.1.taskType = a.task.taskType ∧
    p.1.taskExecutionID = a.task.id
  breaches : ∀ p ∈ s.breaches, p.1.request = a.request ∧ p.1.taskType = a.task.taskType ∧
    p.1.deadline.taskExecutionID = a.task.id

theorem advance_commits {call : VoteCall} {c : VoteClock} {phase : VotePhase} {i : ℕ}
    (hi : s.calls[i]? = some (call, phase)) (hreq : call.request = a.request)
    (htype : call.taskType = a.task.taskType) (hid : call.taskExecutionID = a.task.id) :
    Commits a.request a.task.taskType a.task.id s.db (advance s.db call c phase).1
      (verdict s (.vote i c)) := by
  cases phase with
  | entered =>
    simp only [verdict, hi, advance]
    split <;> exact .nothing rfl rfl rfl
  | unvoted =>
    simp only [verdict, hi, advance]
    split
    · exact .nothing rfl rfl rfl
    next db' hsave =>
    obtain ⟨hr, he, ht⟩ := saveVote_tables hsave
    exact .nothing hr he ht
  | saved | counted | returned =>
    simp only [verdict, hi]
    exact .nothing rfl rfl rfl
  | listed =>
    simp only [verdict, hi, advance]
    rw [← hreq, ← htype, ← hid]
    exact settle_commits _ _

theorem timeOut_commits {breach : SLABreach} {c : VoteClock} {i : ℕ}
    (hi : s.breaches[i]? = some (breach, .entered)) (hreq : breach.request = a.request)
    (htype : breach.taskType = a.task.taskType)
    (hid : breach.deadline.taskExecutionID = a.task.id) :
    Commits a.request a.task.taskType a.task.id s.db (timeOut s.db c breach)
      (verdict s (.breach i c)) := by
  simp only [verdict, hi, timeOut, hreq, htype, hid]
  cases breach.deadline.timeoutAction with
  | autoApprove => exact .approve _ _ _ _ rfl
  | autoReject => exact .reject _ _ _ _ _ rfl
  | _ => exact .nothing rfl rfl rfl

variable {s' : Voting} {action : VotingAction}

theorem step_commits (h : Inv a s) (he : s.step action = some s') :
    Commits a.request a.task.taskType a.task.id s.db s'.db (verdict s action) := by
  cases action with
  | vote =>
    simp only [step] at he
    split at he <;> cases he
    next call phase hi =>
    obtain ⟨hreq, htype, hid⟩ := h.calls _ (List.mem_of_getElem? hi)
    exact advance_commits hi hreq htype hid
  | breach =>
    simp only [step] at he
    split at he
    · next breach hi =>
      cases he
      obtain ⟨hreq, htype, hid⟩ := h.breaches _ (List.mem_of_getElem? hi)
      exact timeOut_commits hi hreq htype hid
    · next breach hi =>
      cases he
      simp only [verdict, hi]
      exact .nothing rfl rfl rfl
    · cases he

theorem step_processes (he : s.step action = some s') : (∀ p ∈ s'.calls, ∃ q ∈ s.calls, p.1 = q.1) ∧
      ∀ p ∈ s'.breaches, ∃ q ∈ s.breaches, p.1 = q.1 := by
  have hset : ∀ {α β : Type} {l : List (α × β)} {i : ℕ} {x : α} {y y' : β},
      l[i]? = some (x, y) → ∀ p ∈ l.set i (x, y'), ∃ q ∈ l, p.1 = q.1 := by
    intro α β l i x y y' hi p hp
    rcases List.mem_or_eq_of_mem_set hp with hp | rfl
    · exact ⟨p, hp, rfl⟩
    · exact ⟨(x, y), List.mem_of_getElem? hi, rfl⟩
  cases action with
  | vote =>
    simp only [step] at he
    split at he <;> cases he
    next call phase hi =>
    exact ⟨hset hi, fun p hp => ⟨p, hp, rfl⟩⟩
  | breach =>
    simp only [step] at he
    split at he
    · next breach hi =>
      cases he
      exact ⟨fun p hp => ⟨p, hp, rfl⟩, hset hi⟩
    · next breach hi =>
      cases he
      exact ⟨fun p hp => ⟨p, hp, rfl⟩, hset hi⟩
    · cases he

section

variable (h : Inv a s) (he : s.step action = some s')
include h he

theorem inv_of_stage (hstage : Stage a s'.db) : Inv a s' := by
  obtain ⟨hcalls, hbreaches⟩ := step_processes he
  refine ⟨hstage, fun p hp => ?_, fun p hp => ?_⟩
  · obtain ⟨q, hq, hpq⟩ := hcalls p hp
    rw [hpq]
    exact h.calls q hq
  · obtain ⟨q, hq, hpq⟩ := hbreaches p hp
    rw [hpq]
    exact h.breaches q hq

theorem stage_of_inOrder (hok : InOrder a s action) : Stage a s'.db := by
  have hc := step_commits h he
  unfold InOrder at hok
  generalize verdict s action = v at hc hok
  cases hc with
  | nothing hr he ht => exact h.stage.of_tables hr he ht
  | approve qc _ _ _ heq =>
    rw [heq]
    exact h.stage.approve hok
  | reject qc _ _ _ _ heq =>
    rw [heq]
    exact h.stage.reject hok.1 hok.2

theorem inOrder_of_allOrNothing (hall : AllOrNothing a s') : InOrder a s action := by
  have hc := step_commits h he
  unfold InOrder
  generalize verdict s action = v at hc ⊢
  cases hc with
  | nothing => trivial
  | approve qc _ _ _ heq =>
    intro hwait
    by_contra hw
    exact not_allOrNothing_approve h.stage hwait (by simpa using hw) heq hall
  | reject qc _ _ _ _ heq =>
    refine ⟨fun hwait => ?_, fun hpend => ?_⟩
    · by_contra hw
      exact not_allOrNothing_reject h.stage (.inl ⟨hwait, by simpa using hw⟩) heq hall
    · exact not_allOrNothing_reject h.stage (.inr hpend) heq hall

end

theorem inv_initial (h : Initial a s) : Inv a s where
  stage := .undecided h.request h.execution h.task
  calls p hp := ⟨(h.calls p hp).1, (h.calls p hp).2.1, (h.calls p hp).2.2.1⟩
  breaches p hp := ⟨(h.breaches p hp).1, (h.breaches p hp).2.1, (h.breaches p hp).2.2.1⟩

/-- Along a run every state shows one of the three outcomes exactly if every decision is in
order. -/
theorem allOrNothing_iff_inOrder {s : Voting} (h : Initial a s) (actions : List VotingAction) :
    (system a).Along (AllOrNothing a) s actions ↔ (system a).Meets (InOrder a) s actions := by
  apply TransitionSystem.along_iff_meets (I := Inv a)
  · exact fun s h => h.stage.allOrNothing
  · exact fun s action s' h he => ⟨inOrder_of_allOrNothing h he,
      fun hok => inv_of_stage h he (stage_of_inOrder h he hok)⟩
  · exact inv_initial h

def twoVoters : Voting where
  db := review.database
  calls :=
    [(voteBy (policyOver "alice,bob" 1 true) "alice" "alice" .approved "", .entered),
      (voteBy (policyOver "alice,bob" 1 true) "bob" "bob" .rejected "broken", .entered)]
  breaches := []

theorem initial_twoVoters : Initial review twoVoters := by
  refine ⟨rfl, rfl, rfl, ?_, by simp [twoVoters]⟩
  simp [twoVoters, voteBy, review]

def completeVote (i : ℕ) : List VotingAction :=
  List.replicate 5 (.vote i {})

theorem failed_execution_of_pending_request :
    ¬ ∀ a s, (system a).Reachable s → AllOrNothing a s := by
  intro h
  obtain ⟨s, hs, hr, he⟩ := TransitionSystem.exists_reachableWith (S := system review)
    (fun _ _ => True)
    (fun s => requestState review s = some pending ∧
      (s.db.executions.find? review.execution.id).map JobExecution.jobState = some failed)
    (completeVote 0 ++ completeVote 1) initial_twoVoters (by decide)
  obtain ⟨r, e, t, hr', he', -, hcase⟩ := h review s hs
  have hrow : r.jobState = pending := by simpa [requestState, hr'] using hr
  have hexec : e.jobState = failed := by simpa [he'] using he
  rcases hcase with h | h | h
  · simp [hexec, isTerminal] at h
  · simp [hrow] at h
  · simp [h.1, review] at hrow

/-- One complete vote on its own is in order. -/
theorem allOrNothing_single_vote :
    (system review).Along (AllOrNothing review) twoVoters (completeVote 0) :=
  (allOrNothing_iff_inOrder initial_twoVoters (completeVote 0)).mpr (by decide)

end Voting

end Formicary.Approval

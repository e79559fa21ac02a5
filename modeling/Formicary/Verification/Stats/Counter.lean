import Formicary.Verification.Stats.Steps

/-! # The counter along runs

The operations of supervisors, and the runs in which the counters are exact: those in which every
step ends or starts a run exactly when it tells the registry so. -/

namespace Formicary

open RequestState Database JobStateMachine JobRequestRepository JobExecutionRepository Option
open JobStatsRegistry (Call Calls)

theorem Database.Moved.pairs {req req' : JobRequest} {e e' : JobExecution} {new : RequestState}
    (h : Moved req req' e e' new) (hpairs : Pairs req e) (hnew : agrees new new = true) :
    Pairs req' e' where
  id := by rw [h.executionID, h.id, hpairs.id]
  named := h.id ▸ hpairs.named
  active := h.active.trans hpairs.active
  identity := by rw [h.executionIdentity, h.identity, hpairs.identity]
  states := by rw [h.state, h.executionState, hnew]

namespace JobManager

variable {s : JobManager} {req req' : JobRequest} {e : JobExecution} {job : SupervisedJob}

def machineOf (s : JobManager) (job : SupervisedJob) : JobStateMachine :=
  s.machine job.request job.execution

/-- What an operation tells the registry about the job of a supervisor, whose names it keeps. -/
structure Reports (s : JobManager) (job : SupervisedJob) (req : JobRequest) (m : JobStateMachine)
    (call : Call) : Prop where
  calls : Calls s.stats (m.effects.foldr (record m) s.stats) req.summary call
  request : m.request.id = job.request.id
  execution : m.execution.id = job.execution.id
  identity : m.execution.summary.identity = job.execution.summary.identity

/-- What an operation has done to the job of a supervisor. -/
structure Supervises (s : JobManager) (job : SupervisedJob) (m : JobStateMachine)
    (req req' : JobRequest) (call : Call) : Prop extends Reports s job req m call where
  replaces : Replaces s.db m.db req req'
  paired : Paired m.db req'
  executionID : req'.jobExecutionID = req.jobExecutionID

/-- The rows of the job a supervisor has in memory. -/
structure Supervised (s : JobManager) (job : SupervisedJob) (req : JobRequest) (e : JobExecution) :
    Prop where
  mem : req ∈ s.db.requests
  found : s.db.executions.find? e.id = some e
  pairs : Pairs req e
  request : job.request.id = req.id
  execution : job.execution.id = e.id
  identity : job.execution.summary.identity = req.summary.identity

theorem Sound.supervised (hs : s.Sound) (hjob : job ∈ s.supervisors) :
    ∃ req e, Supervised s job req e := by
  obtain ⟨req, hfind, hexec, hident⟩ := hs.followed job hjob
  obtain ⟨hmem, hid⟩ := Table.find?_eq_some_iff.mp hfind
  rcases hs.paired req hmem with ⟨hnone, _⟩ | ⟨e, he, hpairs⟩
  · rw [hnone] at hexec
    cases hexec
  · exact ⟨req, e, hmem, he, hpairs, hid.symm, (some.inj (hpairs.id.symm.trans hexec)).symm, hident⟩

theorem Supervised.linked (hsup : Supervised s job req e) (hs : s.Sound) : Linked s.db req e :=
  hsup.pairs.linked hs.paired hsup.mem hsup.found

theorem Sound.supervise_iff (hs : s.Sound) {i : ℕ} {op : Operation} {c : Clock} {call : Call}
    (hcall : call ≠ .started) (hsup : Supervised s job req e)
    (h : Supervises s job (op.perform (s.machineOf job) c) req req' call) :
    (s.supervise i job op c).ExactIff
      (call = .of (s.db.isUnderway req) ((s.supervise i job op c).db.isUnderway req')) := by
  have hrepl : Replaces s.db (s.supervise i job op c).db req req' := h.replaces
  have hcalls : Calls s.stats (s.supervise i job op c).stats req.summary call := h.calls
  have hcnt := hs.counts_iff hrepl hcalls.shifts
  refine ⟨hcnt.trans (and_iff_left fun hstart => absurd hstart hcall), fun hright => ?_⟩
  refine hs.replace hrepl hcalls hright h.paired (.inr h.executionID) ?_ hs.events
  intro job' hjob'
  rcases List.mem_or_eq_of_mem_set hjob' with hold | rfl
  · exact .inl hold
  refine .inr ⟨req', Table.find?_eq_some_iff.mpr ⟨hrepl.mem_self, ?_⟩, ?_, ?_⟩
  · exact hrepl.id_eq.trans (hsup.request.symm.trans h.request.symm)
  · rw [h.executionID, hsup.pairs.id, ← hsup.execution]
    exact congrArg some h.execution.symm
  · exact h.identity.trans (hsup.identity.trans hrepl.identity.symm)

variable {m : JobStateMachine}

theorem Supervised.moved (hsup : Supervised s job req e) {e' : JobExecution}
    {new : RequestState} (hmoves : Moves s.db m.db req req' e e' new)
    (hnew : agrees new new = true) {call : Call} (hreps : Reports s job req m call) :
    Supervises s job m req req' call ∧
      m.db.isUnderway req' = (!new.isTerminal && new != paused) := by
  obtain ⟨hreqs, hexecs, hmoved⟩ := hmoves
  have hpairs' := hmoved.pairs hsup.pairs hnew
  have hfound : m.db.executions.find? e'.id = some e' := by
    rw [find?_executions_set hsup.found hexecs hmoved.id, if_pos hmoved.id]
  refine ⟨⟨hreps, ?_, .inr ⟨e', hfound, hpairs'⟩, hmoved.executionID⟩, ?_⟩
  · exact Replaces.of_both hsup.found hexecs hmoved.id hsup.mem hsup.pairs hreqs
      hmoved.identity hmoved.executionID
  · rw [hpairs'.isUnderway hfound, hmoved.state]

section Operations

variable (hs : s.Sound) (hsup : Supervised s job req e) {i : ℕ} {c : Clock} {op : Operation}
  {m : JobStateMachine} (hop : op.perform (s.machineOf job) c = m)
  {call : Call}

include hs hsup hop

theorem Sound.supervise_still (hcall : call ≠ .started) (hdb : m.db = s.db)
    (hreps : Reports s job req m call) :
    (s.supervise i job op c).ExactIff (call = .silent) := by
  have h : Supervises s job m req req call := by
    refine ⟨hreps, ?_, ?_, rfl⟩ <;> rw [hdb]
    · exact Replaces.refl hsup.mem
    · exact hs.paired req hsup.mem
  rw [← hop] at h hdb
  have hsame : (s.supervise i job op c).db.isUnderway req = s.db.isUnderway req :=
    congrArg (Database.isUnderway · req) hdb
  have hiff := hs.supervise_iff (i := i) hcall hsup h
  rw [hsame] at hiff
  refine hiff.congr ?_
  cases s.db.isUnderway req <;> rfl

theorem Sound.supervise_moved {old new : RequestState} (hold : old = ready ∨ old = executing)
    (hstate : req.jobState = old) {e' : JobExecution}
    (hmoves : Moves s.db m.db req req' e e' new) (hnew : agrees new new = true)
    (hcall : call = .of true (!new.isTerminal && new != paused))
    (hreps : Reports s job req m call) : (s.supervise i job op c).Sound := by
  obtain ⟨h, hway⟩ := hsup.moved hmoves hnew hreps
  rw [← hop] at h hway
  have hne : call ≠ .started := by
    rw [hcall]
    cases (!new.isTerminal && new != paused) <;> simp [Call.of]
  have hwas : s.db.isUnderway req = true := by
    rw [hsup.pairs.isUnderway hsup.found, hstate]
    rcases hold with rfl | rfl <;> rfl
  have hiff := hs.supervise_iff (i := i) hne hsup h
  refine hiff.sound (hiff.counts.mpr ?_)
  rw [hwas, hcall]
  exact congrArg (Call.of true) hway.symm

theorem Sound.supervise_ending {old new : RequestState} (hold : old = ready ∨ old = executing)
    (hmoves : req.jobState = old → ∃ req' e', Moves s.db m.db req req' e e' new)
    (href : req.jobState ≠ old → m.db = s.db) (hnew : agrees new new = true)
    (hends : (!new.isTerminal && new != paused) = false)
    (hreps : Reports s job req m .ended) :
    (s.supervise i job op c).ExactIff (req.jobState = old) := by
  by_cases hstate : req.jobState = old
  · obtain ⟨req', e', hmoved⟩ := hmoves hstate
    exact (hs.supervise_moved hsup hop hold hstate hmoved hnew (by rw [hends]; rfl)
      hreps).exactIff hstate
  · exact (hs.supervise_still hsup hop (by simp) (href hstate) hreps).congr
      (iff_of_false (by simp) hstate)

end Operations

/-- The request of the job is in the state that the operation starts from, or the operation is
refused by what the supervisor has in memory. -/
def Operation.Timely (req : JobRequest) (job : SupervisedJob) : Operation → Prop
  | execute => req.jobState = ready
  | complete => req.jobState = executing
  | fail _ _ => job.execution.jobState.isTerminal = true ∨ req.jobState = executing
  | pause => job.execution.jobState ≠ executing ∨ req.jobState = executing
  | requireApproval _ | event _ => True

instance (req : JobRequest) (job : SupervisedJob) (op : Operation) :
    Decidable (op.Timely req job) := by
  cases op <;> dsimp only [Operation.Timely] <;> infer_instance

section Supervise

variable (hs : s.Sound) (hsup : Supervised s job req e) {i : ℕ} {c : Clock} {op : Operation}
include hs hsup

theorem Sound.supervise_failed {old : RequestState} (hold : old = ready ∨ old = executing)
    (err errorCode : String) (hop : op.perform (s.machineOf job) c =
      ((s.machineOf job).failed old false err errorCode c).1.publish) :
    (s.supervise i job op c).ExactIff (req.jobState = old) := by
  obtain ⟨hreq, hex, hjob⟩ :=
    (s.machineOf job).failed_job old false err errorCode c
  have hspec := failed_spec (s.machineOf job) c old false err errorCode
  have hident := hjob.trans (show _ = job.execution.summary.identity by
    have howner : job.execution.jobRequestID = job.request.id :=
      (congrArg Prod.fst hsup.identity).trans hsup.request.symm
    simp only [JobRequestSummary.identity, JobExecution.summary, machineOf, machine, howner])
  have hlink : Linked (s.machineOf job).db req e := hsup.linked hs
  have hlive : old.isTerminal = false := by rcases hold with rfl | rfl <;> rfl
  refine hs.supervise_ending hsup hop hold
    (fun hstate => failed_moves hlink hsup.execution false err errorCode c hlive
      hstate (hsup.pairs.executionState hold hstate))
    (failed_refused hlink hsup.execution false err errorCode c hsup.request)
    rfl rfl ⟨?_, hreq, hex, hident⟩
  rw [publish, report, hspec.effects]
  exact JobStatsRegistry.failed_calls.of_identity (hident.trans hsup.identity)

theorem Sound.supervise_execute :
    (s.supervise i job .execute c).ExactIff (req.jobState = ready) := by
  by_cases hready : req.jobState = ready
  · obtain ⟨db', req', e', hok, hmoves⟩ := update_moves (hsup.linked hs)
      executing rfl "" c.now rfl hready (hsup.pairs.executionState (.inl rfl) hready)
    rw [← hsup.execution] at hok
    have hop : Operation.execute.perform (s.machineOf job) c =
        { s.machineOf job with
          db := db'
          request := { job.request with jobState := executing }
          execution := { job.execution with jobState := executing } }.publish := by
      simp only [Operation.perform, setJobStatusToExecuting, machineOf, machine, hok]
    exact (hs.supervise_moved hsup hop (.inl rfl) hready hmoves rfl rfl
      ⟨Calls.refl s.stats _, rfl, rfl, rfl⟩).exactIff hready
  · obtain ⟨err, herr⟩ := update_refused (hsup.linked hs) executing rfl "" c.now hready
    rw [← hsup.execution] at herr
    refine hs.supervise_failed hsup (.inl rfl)
      ("failed to set job-execution state to EXECUTING due to " ++ err.message) "" ?_
    simp only [Operation.perform, setJobStatusToExecuting, machineOf, machine, herr,
      JobStateMachine.launchFailed]

omit hs in
theorem finalized_reports (old : RequestState) (delay : Time)
    (heff : m.effects = []) (hreq : m.request.id = job.request.id)
    (hex : m.execution.id = job.execution.id)
    (hident : m.execution.summary.identity = job.execution.summary.identity) :
    Reports s job req (m.finalize old delay c).1.publish .ended := by
  have hcalls : ∀ m' : JobStateMachine,
      m'.execution.summary.identity = job.execution.summary.identity →
      Calls s.stats (record m' (.recorded (finalizeStats m.request.jobState))
        s.stats) req.summary .ended := by
    intro m' hm'
    unfold finalizeStats
    split
    · exact JobStatsRegistry.failed_calls.of_identity (hm'.trans hsup.identity)
    split
    · exact JobStatsRegistry.paused_calls.of_identity (hm'.trans hsup.identity)
    · exact JobStatsRegistry.succeeded_calls.of_identity (hm'.trans hsup.identity)
  rw [publish, report]
  refine ⟨?_, ?_, ?_, ?_⟩
  all_goals simp only [finalize_fields]
  · rw [heff]
    refine hcalls _ ?_
    simpa only [finalize_fields]
  all_goals assumption

theorem Sound.supervise_finalized (delay : Time) (hdb : m.db = s.db)
    (hex : m.execution.id = job.execution.id)
    (hreps : Reports s job req (m.finalize executing delay c).1.publish .ended)
    (hcan : m.execution.jobState.canFinalize = true)
    (hnew : agrees m.execution.jobState m.execution.jobState = true)
    (hends : (!m.execution.jobState.isTerminal && m.execution.jobState != paused) = false)
    (hop : op.perform (s.machineOf job) c = (m.finalize executing delay c).1.publish) :
    (s.supervise i job op c).ExactIff (req.jobState = executing) := by
  have hlink : Linked m.db req e := hdb ▸ hsup.linked hs
  have hexec : m.execution.id = e.id := hex.trans hsup.execution
  refine hs.supervise_ending hsup hop (.inr rfl) ?_ ?_ hnew hends hreps
  · intro hstate
    rw [← hdb]
    exact (finalize_moves hlink hexec rfl hstate
      (hsup.pairs.executionState (.inr rfl) hstate) hcan delay c).2
  · intro hstate
    rw [← hdb]
    exact (finalize_refused hlink hexec hstate delay c).2

theorem Sound.supervise (hop : ∀ state, op ≠ .event state) :
    (s.supervise i job op c).ExactIff (op.Timely req job) := by
  have hidle : op.perform (s.machineOf job) c = s.machineOf job → op.Timely req job →
      (s.supervise i job op c).ExactIff (op.Timely req job) := fun h htimely =>
    (hs.supervise_still hsup h (by simp) rfl ⟨Calls.refl s.stats _, rfl, rfl, rfl⟩).congr
      (iff_of_true rfl htimely)
  cases op with
  | execute => exact hs.supervise_execute hsup
  | complete =>
    exact hs.supervise_finalized hsup _ rfl rfl (finalized_reports hsup _ _ rfl rfl rfl rfl)
      rfl rfl rfl rfl
  | fail errorCode errorMsg =>
    by_cases hterm : job.execution.jobState.isTerminal = true
    · exact hidle (JobStateMachine.executionFailed_of_terminal _ c errorCode errorMsg hterm)
        (.inl hterm)
    exact (hs.supervise_failed hsup (.inr rfl) errorMsg
      (if errorCode = "" then ErrorCodes.jobExecute else errorCode)
      (show Operation.perform _ _ (.fail errorCode errorMsg) = _ by
        simp [Operation.perform, JobStateMachine.executionFailed, machineOf, machine, hterm])).congr
      (or_iff_right hterm).symm
  | pause =>
    by_cases hexec : job.execution.jobState = executing
    · exact (hs.supervise_finalized hsup (m := { s.machineOf job with
          request := { job.request with
            jobState := paused, pausedCount := job.request.pausedCount + 1,
            retried := job.request.retried + 1 }
          execution := { job.execution with
            jobState := paused, errorCode := ErrorCodes.pauseJob, endedAt := some c.now } })
        c.delay rfl rfl (finalized_reports hsup _ _ rfl rfl rfl rfl) rfl rfl rfl
        (show Operation.perform _ _ .pause = _ by
          simp [Operation.perform, JobStateMachine.pauseJob, machineOf, machine, hexec])).congr
        (or_iff_right fun h => h hexec).symm
    · exact hidle (JobStateMachine.pauseJob_of_not_executing _ c hexec) (.inl hexec)
  | requireApproval taskType =>
    by_cases hexec : req.jobState = executing
    · obtain ⟨db', req', e', hok, hmoves⟩ := update_moves
        (hsup.linked hs) manualApprovalRequired rfl taskType c.now rfl hexec
        (hsup.pairs.executionState (.inr rfl) hexec)
      rw [← hsup.execution] at hok
      have hperf : Operation.perform (s.machineOf job) c
          (.requireApproval taskType) =
          { s.machineOf job with db := db' } := by
        simp only [Operation.perform, JobStateMachine.save, machineOf, machine, hok]
      exact (hs.supervise_moved hsup hperf (.inr rfl) hexec hmoves rfl rfl
        ⟨Calls.refl s.stats _, rfl, rfl, rfl⟩).exactIff trivial
    · obtain ⟨err, herr⟩ := update_refused (hsup.linked hs)
        manualApprovalRequired rfl taskType c.now hexec
      rw [← hsup.execution] at herr
      refine hidle ?_ trivial
      simp only [Operation.perform, JobStateMachine.save, machineOf, machine, herr]
  | event state => exact absurd rfl (hop state)

end Supervise

/-- The steps that start or end the run of a request exactly if they tell the registry so. -/
def Balanced (s : JobManager) : Action → Prop
  | .schedule id _ sent _ =>
    sent = true ∧ ∀ req ∈ s.db.requests.find? id, s.db.isUnderway req = false ∧
      -- the counter has 32 bits
      s.db.underwayCount req.getUserJobTypeKey + 1 < 2 ^ 31
  | .scheduleFailed id _ _ _ | .launchFailed id _ _ | .reject _ id _ _ _ _ _ _ =>
    ∀ req ∈ s.db.requests.find? id, s.db.isUnderway req = false
  | .supervise i op _ =>
    ∀ job ∈ s.supervisors[i]?, ∀ req ∈ s.db.requests.find? job.request.id, op.Timely req job
  | .cancelJobRequest qc id _ =>
    ∀ req ∈ (get s.db qc id).toOption, s.db.isUnderway req = true ∧ waits req.jobState = true ∧
        qc.orgElseUserWhere false req.userID req.organizationID = true
  | .pauseJobRequest qc id =>
    ∀ req ∈ (get s.db qc id).toOption, req.jobState ≠ executing
  | .saveJobRequest _ _ | .launch _ _ | .overrideCancelRequest _ _ _ | .approve _ _ _ _ _ _ _
  | .requeueOrphanRequests _ _ => True

instance (s : JobManager) (action : Action) : Decidable (Balanced s action) := by
  cases action <;> dsimp only [Balanced] <;> infer_instance

theorem inState_eq_some {s : JobManager} {id : String} {states : List RequestState}
    (h : s.inState id states = some req) :
    s.db.requests.find? id = some req ∧ req ∈ s.db.requests ∧ req.jobState ∈ states := by
  obtain ⟨hfind, hstate⟩ := filter_eq_some_iff.mp h
  exact ⟨hfind, (Table.find?_eq_some_iff.mp hfind).1, by simpa using hstate⟩

theorem step_iff {s' : JobManager} {action : Action} (hs : s.Sound) (he : s.step action = some s') :
    s'.ExactIff (Balanced s action) := by
  cases action with
  | saveJobRequest => exact (hs.saveJobRequest he).exactIff trivial
  | schedule id freshID sent c =>
    obtain ⟨⟨hne, hfresh⟩, he⟩ := ite_none_right_eq_some.mp he
    obtain ⟨req, hin, rfl⟩ := map_eq_some_iff.mp he
    obtain ⟨hfind, hmem, hstate⟩ := inState_eq_some hin
    have hstate' : req.jobState = pending ∨ req.jobState = paused := by simpa using hstate
    obtain ⟨s₁, req', e, request, execution, heq, hreq, hex, hsched⟩ :=
      hs.createJobExecution hmem hstate' hne hfresh c
    rw [heq sent]
    cases sent with
    | true =>
      refine (hsched.exactIff hs).congr ?_
      simp [Balanced, hfind]
    | false =>
      exact exactIff_of_not (hsched.not_counts_reverted hs hreq hex
        (by rwa [revertState_eq req hstate'] : Lifecycle.revertState req = pending ∨ _)
        "failed to send launch event" c) fun h => Bool.false_ne_true h.1
  | scheduleFailed id err errorCode c =>
    obtain ⟨req, hin, rfl⟩ := map_eq_some_iff.mp he
    obtain ⟨hfind, hmem, hstate⟩ := inState_eq_some hin
    have hstate' : req.jobState = pending ∨ req.jobState = paused := by simpa using hstate
    have hok : req.jobState.canTransitionTo failed = true := by
      rcases hstate' with h | h <;> rw [h] <;> rfl
    refine (hs.requestFailed hmem hok (show s.scheduleFailed req err errorCode c = _ by
      rw [scheduleFailed, revertState_eq req hstate'])).congr ?_
    simp [Balanced, hfind]
  | launch => exact (hs.prepareLaunch he).exactIff trivial
  | launchFailed id err c =>
    obtain ⟨req, hin, rfl⟩ := map_eq_some_iff.mp he
    obtain ⟨hfind, hmem, hstate⟩ := inState_eq_some hin
    have hstate' : req.jobState = ready := by simpa using hstate
    refine (hs.requestFailed hmem (by rw [hstate']; rfl)
      (show s.launchFailed req err c = _ by rw [launchFailed, hstate'])).congr ?_
    simp [Balanced, hfind]
  | supervise i op c =>
    unfold step at he
    dsimp only at he
    cases hjob : s.supervisors[i]? with
    | none => simp [hjob] at he
    | some job =>
      obtain ⟨req, e, hsup⟩ := hs.supervised (List.mem_of_getElem? hjob)
      have hfind : s.db.requests.find? job.request.id = some req :=
        Table.find?_eq_some_iff.mpr ⟨hsup.mem, hsup.request.symm⟩
      have hiff : (∀ state, op ≠ .event state) → s.supervise i job op c = s' →
          s'.ExactIff (Balanced s (.supervise i op c)) := by
        rintro hop rfl
        refine (hs.supervise hsup hop).congr ?_
        simp [Balanced, hjob, hfind]
      rw [hjob] at he
      cases op with
      | event =>
        -- no event has been published
        simp [hs.events] at he
      | execute | complete | fail | pause | requireApproval =>
        exact hiff (by simp) (some.inj he)
  | cancelJobRequest qc id now =>
    cases he
    cases hget : get s.db qc id with
    | error =>
      simp only [JobManager.cancelJobRequest, hget]
      exact hs.exactIff (by simp [Balanced, hget, Except.toOption])
    | ok =>
      refine (hs.cancelJobRequest hget now).congr ?_
      simp [Balanced, hget, Except.toOption]
  | overrideCancelRequest =>
    simp [step, hs.events] at he
  | pauseJobRequest qc id =>
    cases he
    cases hget : get s.db qc id with
    | error =>
      simp only [JobManager.pauseJobRequest, hget]
      exact hs.exactIff (by simp [Balanced, hget, Except.toOption])
    | ok =>
      refine (hs.pauseJobRequest hget).congr ?_
      simp [Balanced, hget, Except.toOption]
  | approve =>
    obtain ⟨req, hin, rfl⟩ := map_eq_some_iff.mp he
    obtain ⟨_, hmem, hstate⟩ := inState_eq_some hin
    exact (hs.approve (by simpa using hstate) hmem rfl).exactIff trivial
  | reject =>
    obtain ⟨req, hin, rfl⟩ := map_eq_some_iff.mp he
    obtain ⟨hfind, hmem, hstate⟩ := inState_eq_some hin
    have hstate' : req.jobState = manualApprovalRequired := by simpa using hstate
    obtain ⟨_, _, _, _, hway⟩ := hs.waiting hstate' hmem
    exact exactIff_of_not (hs.not_counts_reject hstate' hmem rfl) (by simp [Balanced, hfind, hway])
  | requeueOrphanRequests staleInterval now =>
    cases he
    exact (hs.requeueOrphanRequests staleInterval now).exactIff trivial

theorem sound_new : new.Sound where
  named _ hreq := by cases hreq
  paired _ hreq := by cases hreq
  followed _ hjob := by cases hjob
  events := rfl
  counts _ := rfl
  listed _ _ _ := by
    constructor
    · intro h
      cases h
    · rintro ⟨_, hreq, _⟩
      cases hreq

/-- The counters are exact along a run from the start exactly if every step of it is balanced. -/
theorem exact_iff_balanced (actions : List Action) :
    system.Along Exact new actions ↔ system.Meets Balanced new actions := by
  refine TransitionSystem.along_iff_meets (I := Sound) (fun _ hs => hs.exact) ?_ sound_new actions
  intro s action s' hs he
  have hiff := step_iff hs he
  exact ⟨fun h => hiff.counts.mp h.counts, fun hok => hiff.sound (hiff.counts.mpr hok)⟩

def buildRequest (id : String) : JobRequest where
  id := id
  jobType := "build"
  userID := "u1"
  jobDefinitionID := "d1"
  jobState := pending

def cancelPending : List Action :=
  [.saveJobRequest (buildRequest "r1") 0,
    .cancelJobRequest (.newQueryContextFromIDs "u1" "") "r1" 1]

theorem negative_after_cancel : ¬ ∀ s, system.Reachable s → Exact s := by
  intro h
  obtain ⟨s, hreach, hcount⟩ := TransitionSystem.exists_reachableWith (S := system)
    (fun _ _ => True) (fun s => s.stats.getExecutionCount "u1-build:" = -1) cancelPending rfl
    (by decide)
  have hnonneg := (h s hreach "u1-build:").1
  rw [hcount] at hnonneg
  revert hnonneg
  decide

end JobManager

end Formicary

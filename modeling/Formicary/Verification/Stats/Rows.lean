import Formicary.Verification.Lifecycle.Quiet
import Formicary.Verification.Stats.Underway
import Formicary.Verification.Supervisor.Rows

/-! # Statements on a request and its execution

Where requests and executions are paired, a statement that looks at the state of a request or of
its execution changes that request and that execution, or nothing. -/

namespace Formicary

open RequestState Database Lifecycle Table

variable {db db' : Database} {req req' : JobRequest} {e e' : JobExecution}

namespace Database

theorem Replaces.of_request (hmem : req ∈ db.requests)
    (hreqs : db'.requests = db.requests.set req') (hexecutions : db'.executions = db.executions)
    (hident : req'.summary.identity = req.summary.identity)
    (hid : req'.jobExecutionID = req.jobExecutionID) : Replaces db db' req req' where
  mem := hmem
  requests := hreqs
  identity := hident
  executions _ _ := by rw [hexecutions]
  executionID := .inl hid

theorem Replaces.refl (hmem : req ∈ db.requests) : Replaces db db req req :=
  of_request hmem (set_self hmem).symm rfl rfl rfl

section Both

variable (he : db.executions.find? e.id = some e)
  (hexecutions : db'.executions = db.executions.set e') (he' : e'.id = e.id)
include he hexecutions he'

theorem paired_of_both (hpairs' : Pairs req' e') : Paired db' req' :=
  .inr ⟨e', by rw [find?_executions_set he hexecutions he', if_pos he'], hpairs'⟩

theorem Replaces.of_both (hmem : req ∈ db.requests) (hpairs : Pairs req e)
    (hreqs : db'.requests = db.requests.set req')
    (hident : req'.summary.identity = req.summary.identity)
    (hid : req'.jobExecutionID = req.jobExecutionID) : Replaces db db' req req' where
  mem := hmem
  requests := hreqs
  identity := hident
  executions id hne := by
    rw [find?_executions_set he hexecutions he', if_neg]
    rintro rfl
    exact hne (hid.trans hpairs.id)
  executionID := .inl hid

end Both

theorem Pairs.linked (hpairs : Pairs req e) (hpair : ∀ r ∈ db.requests, Paired db r)
    (hmem : req ∈ db.requests) (he : db.executions.find? e.id = some e) : Linked db req e := by
  refine ⟨hmem, he, hpairs.id, fun r hr hid => ?_⟩
  rcases hpair r hr with ⟨hnone, _⟩ | ⟨x, hx, hxr⟩
  · rw [hnone] at hid
    cases hid
  have hxe : x = e := by
    have hxid : x.id = e.id := Option.some.inj (hxr.id.symm.trans hid)
    rw [hxid, he] at hx
    exact (Option.some.inj hx).symm
  rw [hxe] at hxr
  exact eq_of_key_eq hr hmem (hxr.jobRequestID.symm.trans hpairs.jobRequestID)

theorem Pairs.executionState (hpairs : Pairs req e) {old : RequestState}
    (hold : old = ready ∨ old = executing) (hstate : req.jobState = old) : e.jobState = old := by
  have hsts := hpairs.states
  rcases hold with rfl | rfl <;> rw [hstate] at hsts <;> exact beq_iff_eq.mp hsts

end Database

namespace JobRequestRepository

variable {old new : RequestState}

theorem updateJobState_eq (hmem : req ∈ db.requests) (hstate : req.jobState = old)
    (hok : old.canTransitionTo new = true) (errorMessage errorCode : String) (delay : Time)
    (retried pausedCount : ℕ) (userKey : String) (now : Time) :
    ∃ req', updateJobState db req.id (some old) new errorMessage errorCode delay retried
        pausedCount userKey now = .ok { db with requests := db.requests.set req' } ∧
      req'.jobState = new ∧ req'.jobExecutionID = req.jobExecutionID ∧
      req'.summary.identity = req.summary.identity := by
  refine ⟨updateJobStateColumns new errorMessage errorCode delay retried pausedCount userKey now
    req, ?_, rfl, rfl, rfl⟩
  have hupd := updateOne?_eq_set (t := db.requests) (k := req.id)
    (p := fun r => r.id == req.id && r.jobState == old)
    (f := updateJobStateColumns new errorMessage errorCode delay retried pausedCount userKey now)
    (fun _ => by rfl) (fun r _ hr => beq_iff_eq.mp ((Bool.and_eq_true _ _).mp hr).1) hmem
    (by simp [hstate])
  unfold updateJobState
  simp only [hok, Bool.not_true, Bool.false_eq_true, if_false]
  split
  · next requests h =>
    have heq := Option.some.inj (h.symm.trans hupd)
    rw [heq]
  · next h => cases h.symm.trans hupd

theorem setReadyToExecute_eq (hmem : req ∈ db.requests) (hid : req.id ≠ "")
    (hstate : req.jobState = pending ∨ req.jobState = paused) {execID : String}
    (hexec : execID ≠ "") (hrow : db.executions.find? execID = some e) (last : Option String)
    (now : Time) :
    ∃ req', setReadyToExecute db req.id execID last now =
        .ok { db with requests := db.requests.set req' } ∧
      req'.jobState = ready ∧ req'.jobExecutionID = some execID ∧
      req'.summary.identity = req.summary.identity := by
  refine ⟨{ req with
    jobState := ready
    jobExecutionID := some execID
    lastJobExecutionID := last
    updatedAt := now }, ?_, rfl, rfl, rfl⟩
  unfold setReadyToExecute
  simp only [hid, hexec, hrow, if_false]
  rw [updateOne?_eq_set _ (k := req.id) (fun r _ hr => ?_) hmem]
  · simpa using hstate
  · exact beq_iff_eq.mp ((Bool.and_eq_true _ _).mp hr).1

end JobRequestRepository

namespace JobExecutionRepository

theorem resetStateToReady_eq (he : db.executions.find? e.id = some e)
    (hstate : e.jobState.isTerminal = false) (now : Time) :
    resetStateToReady db e.id now = .ok { db with
        executions := db.executions.set { e with jobState := ready, updatedAt := now } } := by
  unfold resetStateToReady
  rw [updateOne?_eq_set _ (k := e.id) (fun x _ hx => ?_) (find?_eq_some_iff.mp he).1]
  · simp [hstate]
  · exact beq_iff_eq.mp ((Bool.and_eq_true _ _).mp hx).1

theorem delete_eq (db : Database) (he : db.executions.find? e.id = some e) (hne : e.id ≠ "")
    (hact : e.active = true) (now : Time) :
    ∃ db', delete db e.id now = .ok db' ∧ db'.requests = db.requests ∧
      db'.executions = db.executions.set { e with active := false, updatedAt := now } := by
  obtain ⟨⟨loaded, db₁⟩, hget⟩ :=
    get_of_active (find?_eq_some_iff.mp he).1 hne hact now
  obtain ⟨hreqs, hexecutions, -⟩ := get_tables hget
  have hupd : db₁.executions.updateOne? (fun x => x.id == e.id && x.active)
      (fun x => { x with active := false, updatedAt := now }) (fun _ => rfl) =
      some (db.executions.set { e with active := false, updatedAt := now }) := by
    rw [hexecutions, updateOne?_eq_set _ (k := e.id) (fun x _ hx => ?_)
      (find?_eq_some_iff.mp he).1 (by simp [hact])]
    exact beq_iff_eq.mp ((Bool.and_eq_true _ _).mp hx).1
  unfold delete
  rw [hget]
  simp only [bind, Except.bind, hupd]
  exact ⟨_, rfl, hreqs, rfl⟩

end JobExecutionRepository

theorem lookupExecution_eq (he : db.executions.find? e.id = some e) (hpairs : Pairs req e)
    (now : Time) :
    ∃ db', lookupExecution db req now = (some e, db') ∧ db'.requests = db.requests ∧
      db'.executions = db.executions := by
  obtain ⟨⟨loaded, db₁⟩, hget⟩ :=
    get_of_active (find?_eq_some_iff.mp he).1 hpairs.named hpairs.active now
  obtain ⟨hreqs, hexecutions, hfind⟩ := get_tables hget
  refine ⟨db₁, ?_, hreqs, hexecutions⟩
  have hload : loaded.execution = e := Option.some.inj (hfind.symm.trans he)
  simp only [lookupExecution, hpairs.id, hget, hload]

end Formicary

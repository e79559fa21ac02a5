import Formicary.Verification.Stats.Registry
import Formicary.Verification.Supervisor.Machine

/-! # The rows of a supervised job

A supervisor changes the rows of its request and of its execution by statements that look for both
in one state. -/

namespace Formicary

open RequestState JobExecutionRepository Table

variable {db db' : Database} {req req' : JobRequest} {e e' : JobExecution} {old : RequestState}

namespace Database

/-- The rows of a request and of the execution that no other request refers to. -/
structure Linked (db : Database) (req : JobRequest) (e : JobExecution) : Prop where
  mem : req ∈ db.requests
  found : db.executions.find? e.id = some e
  executionID : req.jobExecutionID = some e.id
  unique : ∀ r ∈ db.requests, r.jobExecutionID = some e.id → r = req

/-- A request and its execution have moved to a state together. -/
structure Moved (req req' : JobRequest) (e e' : JobExecution) (new : RequestState) : Prop where
  state : req'.jobState = new
  executionID : req'.jobExecutionID = req.jobExecutionID
  identity : req'.summary.identity = req.summary.identity
  executionState : e'.jobState = new
  id : e'.id = e.id
  active : e'.active = e.active
  executionIdentity : e'.summary.identity = e.summary.identity

def Moves (db db' : Database) (req req' : JobRequest) (e e' : JobExecution) (new : RequestState) :
    Prop :=
  db'.requests = db.requests.set req' ∧ db'.executions = db.executions.set e' ∧
    Moved req req' e e' new

theorem Moved.requestID {new : RequestState} (h : Moved req req' e e' new) : req'.id = req.id :=
  congrArg Prod.fst h.identity

theorem find?_executions_set (he : db.executions.find? e.id = some e)
    (hexecs : db'.executions = db.executions.set e') (he' : e'.id = e.id) (id : String) :
    db'.executions.find? id = if id = e.id then some e' else db.executions.find? id := by
  rw [hexecs, find?_set (find?_eq_some_iff.mp he).1 he']

theorem Moves.linked {new : RequestState} (h : Moves db db' req req' e e' new)
    (hlinked : Linked db req e) : Linked db' req' e' := by
  obtain ⟨hreqs, hexecs, hmoved⟩ := h
  have hmem : ∀ r, r ∈ db'.requests ↔ r = req' ∨ r ∈ db.requests ∧ r.id ≠ req.id := by
    intro r
    rw [hreqs]
    exact mem_set hlinked.mem hmoved.requestID
  refine ⟨(hmem req').mpr (.inl rfl), ?_, ?_, ?_⟩
  · rw [find?_executions_set hlinked.found hexecs hmoved.id, if_pos hmoved.id]
  · rw [hmoved.executionID, hmoved.id, hlinked.executionID]
  intro r hr hid
  rcases (hmem r).mp hr with rfl | ⟨hr, hne⟩
  · rfl
  rw [hmoved.id] at hid
  exact absurd (congrArg JobRequest.id (hlinked.unique r hr hid)) hne

end Database

open Database

theorem JobRequestRepository.updateJobState_error (hmem : req ∈ db.requests)
    (hstate : req.jobState ≠ old) (new : RequestState) (errorMessage errorCode : String)
    (delay : Time) (retried pausedCount : ℕ) (userKey : String) (now : Time) :
    ∃ err, updateJobState db req.id (some old) new errorMessage errorCode delay retried pausedCount
      userKey now = .error err := by
  unfold updateJobState
  dsimp only
  split
  · exact ⟨_, rfl⟩
  split
  · next requests h =>
    -- a row that is selected is the request, which is in another state
    obtain ⟨r, hr, hsel⟩ := exists_of_updateOne? h
    simp only [Bool.and_eq_true, beq_iff_eq] at hsel
    exact absurd (eq_of_key_eq hr hmem hsel.1 ▸ hsel.2) hstate
  · exact ⟨_, rfl⟩

namespace JobExecutionRepository

section Both

variable {new : RequestState} {setRequest : JobRequest → JobRequest}
  {hreq : ∀ r, (setRequest r).id = r.id} {setExecution : JobExecution → JobExecution}
  {hexec : ∀ x, (setExecution x).id = x.id} {msg : String} (hlinked : Linked db req e)
include hlinked

theorem updateBoth_eq (hstate : req.jobState = old) (hstate' : e.jobState = old)
    (hold : old.isTerminal = false) :
    updateBoth db e.id old new setRequest hreq setExecution hexec msg = .ok { db with
        requests := db.requests.set (setRequest req)
        executions := db.executions.set (setExecution e) } := by
  unfold updateBoth
  rw [updateOne?_eq_set _ (k := req.id) (fun r hr hsel => ?_) hlinked.mem
    (by simp [hlinked.executionID, hstate])]
  · rw [updateOne?_eq_set _ (k := e.id) (fun x _ hx => ?_) (find?_eq_some_iff.mp hlinked.found).1]
    · simp [hstate', hold]
    · simp only [Bool.and_eq_true, beq_iff_eq] at hx
      exact hx.1.1
  · have hid := beq_iff_eq.mp ((Bool.and_eq_true _ _).mp hsel).1
    rw [hlinked.unique r hr hid]

theorem updateBoth_error (hstate : req.jobState ≠ old) :
    ∃ err, updateBoth db e.id old new setRequest hreq setExecution hexec msg = .error err := by
  unfold updateBoth
  rw [updateOne?_eq_none]
  · exact ⟨_, rfl⟩
  intro r hr
  by_cases hid : r.jobExecutionID = some e.id
  · rw [hlinked.unique r hr hid]
    simp [hstate]
  · simp [hid]

end Both

section Update

variable (hlinked : Linked db req e) (new : RequestState) (hnew : new.isTerminal = false)
  (currentTask : String) (now : Time)
include hlinked hnew

theorem update_moves (hold : old.isTerminal = false) (hstate : req.jobState = old)
    (hstate' : e.jobState = old) :
    ∃ db' req' e', updateJobRequestAndExecutionState db e.id old new currentTask now = .ok db' ∧
      Moves db db' req req' e e' new := by
  unfold updateJobRequestAndExecutionState
  rw [hnew, if_neg Bool.false_ne_true, updateBoth_eq hlinked hstate hstate' hold]
  exact ⟨_, _, _, rfl, rfl, rfl, ⟨rfl, rfl, rfl, rfl, rfl, rfl, rfl⟩⟩

theorem update_refused (hstate : req.jobState ≠ old) :
    ∃ err, updateJobRequestAndExecutionState db e.id old new currentTask now = .error err := by
  unfold updateJobRequestAndExecutionState
  rw [hnew, if_neg Bool.false_ne_true]
  exact updateBoth_error hlinked hstate

end Update

end JobExecutionRepository

namespace JobStateMachine

variable {m : JobStateMachine}

theorem updateJobRequestState_refused (hmem : req ∈ m.db.requests) (hid : m.request.id = req.id)
    (hstate : req.jobState ≠ old) (new : RequestState) (errorMessage errorCode : String)
    (delay : Time) (retried : ℕ) (reverted : Bool) (c : Clock) :
    (m.updateJobRequestState old new errorMessage errorCode delay retried reverted c).1.db =
      m.db := by
  obtain ⟨err, herr⟩ := JobRequestRepository.updateJobState_error hmem hstate new errorMessage
    errorCode delay retried m.request.pausedCount c.userKey c.now
  unfold updateJobRequestState save
  rw [hid, herr]
  dsimp only
  split <;> rfl

section Rows

variable (hlinked : Linked m.db req e) (hexec : m.execution.id = e.id)
include hlinked hexec

theorem finalize_moves (hold : old.isTerminal = false) (hstate : req.jobState = old)
    (hstate' : e.jobState = old) (hnew : m.execution.jobState.canFinalize = true) (delay : Time)
    (c : Clock) :
    (m.finalize old delay c).2 = none ∧
      ∃ req' e', Moves m.db (m.finalize old delay c).1.db req req' e e' m.execution.jobState := by
  unfold finalize finalizeJobRequestAndExecutionState
  rw [hnew, if_pos rfl, hexec, updateBoth_eq hlinked hstate hstate' hold]
  exact ⟨rfl, _, _, rfl, rfl, ⟨rfl, rfl, rfl, rfl, rfl, rfl, rfl⟩⟩

theorem finalize_refused (hstate : req.jobState ≠ old) (delay : Time) (c : Clock) :
    (m.finalize old delay c).2 ≠ none ∧ (m.finalize old delay c).1.db = m.db := by
  obtain ⟨err, herr⟩ : ∃ err, finalizeJobRequestAndExecutionState m.db
      m.execution.id old m.execution.jobState m.execution.errorMessage m.execution.errorCode
      c.cpuSecs delay m.request.retried m.request.pausedCount c.userKey c.now = .error err := by
    unfold finalizeJobRequestAndExecutionState
    split
    · rw [hexec]
      exact updateBoth_error hlinked hstate
    · exact ⟨_, rfl⟩
  simp [finalize, save, herr, report]

variable (cancelled : Bool) (err errorCode : String) (c : Clock)

theorem failed_moves (hold : old.isTerminal = false) (hstate : req.jobState = old)
    (hstate' : e.jobState = old) :
    ∃ req' e', Moves m.db (m.failed old cancelled err errorCode c).1.db req req' e e'
      (failedState cancelled) := by
  have hnew :
      (m.markFailed cancelled err errorCode c.now).execution.jobState.canFinalize = true := by
    cases cancelled <;> rfl
  obtain ⟨hnone, req', e', hmoves⟩ := finalize_moves (m := m.markFailed cancelled err errorCode
    c.now) hlinked hexec hold hstate hstate' hnew c.delay c
  unfold failed
  dsimp only
  rw [hnone]
  exact ⟨req', e', hmoves⟩

theorem failed_refused (hid : m.request.id = req.id) (hstate : req.jobState ≠ old) :
    (m.failed old cancelled err errorCode c).1.db = m.db := by
  obtain ⟨hsome, hdb⟩ := finalize_refused (m := m.markFailed cancelled err errorCode c.now)
    hlinked hexec hstate c.delay c
  unfold failed
  dsimp only
  split
  · next hnone => exact absurd hnone hsome
  refine (updateJobRequestState_refused (hdb ▸ hlinked.mem) ?_ hstate _ _ _ _ _ _ _).trans hdb
  simpa [markFailed] using hid

end Rows

theorem failed_job (m : JobStateMachine) (old : RequestState) (cancelled : Bool)
    (err errorCode : String) (c : Clock) :
    (m.failed old cancelled err errorCode c).1.request.id = m.request.id ∧
      (m.failed old cancelled err errorCode c).1.execution.id = m.execution.id ∧
      (m.failed old cancelled err errorCode c).1.execution.summary.identity =
        { m.execution.summary with id := m.request.id }.identity := by
  unfold failed
  dsimp only
  split <;> simp [markFailed] <;> rfl

end JobStateMachine

end Formicary

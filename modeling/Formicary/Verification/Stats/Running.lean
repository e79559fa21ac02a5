import Formicary.Model.JobManager
import Formicary.Verification.Lifecycle.Scheduler
import Formicary.Verification.Supervisor.Machine

/-! # Requests that run

A request runs while it is READY or EXECUTING. -/

namespace Formicary

open RequestState JobStateMachine Lifecycle Table.Evolves

def JobRequest.isRunning (req : JobRequest) : Bool :=
  req.jobState == ready || req.jobState == executing

/-- A request keeps its id and its definition, and does not begin to run, unless it is the one with
the id that is given. -/
structure Settles (started : Option String) (r r' : JobRequest) : Prop where
  id : r'.id = r.id
  jobDefinitionID : r'.jobDefinitionID = r.jobDefinitionID
  isRunning : r'.isRunning = true → r.isRunning = true ∨ started = some r.id

namespace Settles

variable {started : Option String} {r r' r'' : JobRequest}

theorem refl (r : JobRequest) : Settles started r r := ⟨rfl, rfl, .inl⟩

theorem trans (h : Settles started r r') (h' : Settles started r' r'') : Settles started r r'' where
  id := h'.id.trans h.id
  jobDefinitionID := h'.jobDefinitionID.trans h.jobDefinitionID
  isRunning hrun := by
    rcases h'.isRunning hrun with hrun | hid
    · exact h.isRunning hrun
    · exact .inr (hid.trans (congrArg some h.id))

theorem mono (h : Settles none r r') : Settles started r r' where
  __ := h
  isRunning hrun := by
    rcases h.isRunning hrun with hrun | hid
    · exact .inl hrun
    · cases hid

end Settles

abbrev Database.Settle (db : Database) (started : Option String) (db' : Database) : Prop :=
  db.requests.Evolves (Settles started) db'.requests

namespace Database.Settle

variable {db db' db'' : Database} {started : Option String}

theorem same (h : db'.requests = db.requests) : db.Settle started db' := by
  rw [Database.Settle, h]
  exact refl Settles.refl _

theorem trans (h : db.Settle started db') (h' : db'.Settle started db'') : db.Settle started db'' :=
  Table.Evolves.trans h h' fun _ _ _ => Settles.trans

theorem mono (h : db.Settle none db') : db.Settle started db' :=
  Table.Evolves.mono h fun _ _ => Settles.mono

theorem commit {result : Except Error Database}
    (h : ∀ db', result = .ok db' → db.Settle started db') :
    db.Settle started (commit db result) := by
  cases result with
  | error => exact same rfl
  | ok db' => exact h db' rfl

end Database.Settle

section Statements

variable {db db' : Database} {id userKey : String} {now : Time} {old new : RequestState}

theorem settle_of_moves {P Q : JobRequest → JobRequest → Prop}
    (hnew : new ≠ ready ∧ new ≠ executing ∨ old = ready ∨ old = executing)
    (h : db.requests.Evolves (fun r r' => r' = r ∨ P r r' ∧ RequestMoves old new userKey r r' ∧
      Q r r') db'.requests) : db.Settle none db' := by
  refine ⟨fun r' hr' => ?_, h.kept⟩
  obtain ⟨r, hr, hid, rfl | ⟨-, hmoves, -⟩⟩ := h.origin r' hr'
  · exact ⟨r', hr, rfl, Settles.refl r'⟩
  refine ⟨r, hr, hid, hid.symm, hmoves.jobDefinitionID, fun hrun => .inl ?_⟩
  rcases hnew with hnew | hold
  · simp [JobRequest.isRunning, hmoves.target, hnew] at hrun
  · rcases hold with hold | hold <;> simp [JobRequest.isRunning, hmoves.source, hold]

theorem setReadyToExecute_settle {executionID : String} {last : Option String}
    (h : JobRequestRepository.setReadyToExecute db id executionID last now = .ok db') :
    db.Settle (some id) db' := by
  obtain ⟨-, -, -, -, hreqs⟩ := setReadyToExecute_eq_ok h
  refine mono hreqs ?_
  rintro r r' (⟨-, rfl⟩ | ⟨rfl, rfl⟩)
  · exact Settles.refl _
  · exact ⟨rfl, rfl, fun _ => .inr rfl⟩

theorem incrementScheduleAttempts_settle {secs : Time} {decrPriority : ℤ} {errorMessage : String}
    (h : JobRequestRepository.incrementScheduleAttempts db id secs decrPriority errorMessage now =
      .ok db') : db.Settle none db' := by
  refine mono (incrementScheduleAttempts_eq_ok h).2 ?_
  rintro r r' (rfl | rfl) <;> exact ⟨rfl, rfl, .inl⟩

end Statements

namespace JobStateMachine

variable (m : JobStateMachine)

theorem Closes.settle {m m' : JobStateMachine} {old : RequestState} (h : Closes old m m') :
    m.db.Settle none m'.db := by
  cases h.rows with
  | same hdb => exact .same (by rw [hdb])
  | both hnew hmoves =>
    refine settle_of_moves (.inl ⟨?_, ?_⟩) hmoves.requests <;> rintro rfl <;> cases hnew
  | alone hnew hupds =>
    refine settle_of_moves (.inl ⟨?_, ?_⟩) hupds.requests <;> rintro rfl <;> cases hnew

theorem setJobStatusToExecuting_settle (c : Clock) :
    m.db.Settle none (m.setJobStatusToExecuting c).1.db := by
  unfold setJobStatusToExecuting
  split
  · next db hupd =>
    exact settle_of_moves (.inr (.inl rfl)) (updateState_movesBoth hupd).requests
  · exact .same rfl

end JobStateMachine

namespace JobManager

variable {s s' : JobManager}

theorem perform_settle (m : JobStateMachine) (c : Clock) (op : Operation) :
    m.db.Settle none (op.perform m c).db := by
  cases op with
  | execute =>
    have hexec := m.setJobStatusToExecuting_settle c
    simp only [Operation.perform]
    split
    · next m' hres =>
      rw [hres] at hexec
      exact hexec
    · next m' err hres =>
      rw [hres] at hexec
      exact hexec.trans (launchFailed_closes _).settle
  | complete => exact executionCompleted_closes.settle
  | fail errorCode errorMsg =>
    exact (executionFailed_closes errorCode errorMsg).settle
  | pause => exact pauseJob_closes.settle
  | requireApproval =>
    simp only [Operation.perform, save]
    split
    · next hdb =>
      exact settle_of_moves (.inl ⟨by decide, by decide⟩) (updateState_movesBoth hdb).requests
    · exact .same rfl
  | event state => exact (updateFromJobLifecycleEvent_closes state).settle

theorem scheduleFailed_settle (req : JobRequest) (err errorCode : String) (c : Clock) :
    s.db.Settle none (s.scheduleFailed req err errorCode c).db :=
  .commit fun _ hdb =>
    settle_of_moves (.inl ⟨by decide, by decide⟩) (updateJobState_updates hdb).requests

theorem startJobExecution_requests (s : JobManager) (req : JobRequest) (freshID : String)
    (now : Time) : (s.startJobExecution req freshID now).1.db.requests = s.db.requests := by
  unfold startJobExecution
  cases hres : lookupExecution s.db req now with
  | mk =>
    have hlook := (lookupExecution_spec hres).1
    dsimp only
    split
    · split
      · next db' hsave =>
        obtain ⟨executions, -, rfl⟩ := save_eq_ok hsave
        exact hlook
      · exact hlook
    · split
      · next db' hreset =>
        rw [(resetStateToReady_eq_ok hreset).2]
        exact hlook
      · exact hlook

theorem updateJobRequestState_settle (m : JobStateMachine) {newState : RequestState}
    (hnew : newState ≠ ready ∧ newState ≠ executing) (oldState : RequestState)
    (errorMessage errorCode : String) (delay : Time) (retried : ℕ) (reverted : Bool) (c : Clock) :
    m.db.Settle none
      (m.updateJobRequestState oldState newState errorMessage errorCode delay retried reverted
        c).1.db := by
  unfold updateJobRequestState
  cases hres : JobRequestRepository.updateJobState m.db m.request.id (some oldState) newState
      errorMessage errorCode delay retried m.request.pausedCount c.userKey c.now with
  | ok =>
    dsimp only [save]
    split <;> exact settle_of_moves (.inl hnew) (updateJobState_updates hres).requests
  | error =>
    dsimp only [save]
    split <;> exact .same rfl

theorem revertRequestToPendingPaused_settle (m : JobStateMachine) (req : JobRequest) (err : String)
    (c : Clock) :
    m.db.Settle none (m.revertRequestToPendingPaused (revertState req) err c).1.db := by
  have hne : revertState req ≠ ready ∧ revertState req ≠ executing := by
    rcases revertState_cases req with h | h | h <;> simp [h]
  have hreq := updateJobRequestState_settle m hne ready err "" c.delay 0 false c
  unfold revertRequestToPendingPaused
  cases hres : m.updateJobRequestState ready (revertState req) err "" c.delay 0 false c with
  | mk =>
    rw [hres] at hreq
    refine hreq.trans ?_
    dsimp only
    unfold save
    split
    · next db hdel => exact .same (delete_ok hdel).1
    · exact .same rfl

theorem createJobExecution_settle (s : JobManager) (req : JobRequest) (freshID : String)
    (sent : Bool) (c : Clock) :
    s.db.Settle (some req.id) (s.createJobExecution req freshID sent c).db := by
  have hstart := startJobExecution_requests s req freshID c.now
  unfold createJobExecution
  cases hres : s.startJobExecution req freshID c.now with
  | mk s₁ result =>
    rw [hres] at hstart
    have hsame : s.db.Settle (some req.id) s₁.db := .same hstart
    cases result with
    | error => exact hsame.trans (scheduleFailed_settle req _ _ c).mono
    | ok execution =>
      dsimp only
      split
      · next err _ =>
        exact hsame.trans (failed_closes (m := s₁.machine req execution) _ false _ _).settle.mono
      next db hready =>
      have hready := hsame.trans (setReadyToExecute_settle hready)
      split
      · exact hready
      exact hready.trans (revertRequestToPendingPaused_settle (machine { s₁ with db := db }
          { req with jobExecutionID := some execution.id, jobState := ready } execution)
        req "failed to send launch event" c).mono

end JobManager

end Formicary

import Formicary.Verification.Lifecycle.SingleExecution

/-! # Finished executions

Every writer of the execution table guards its update or ends the execution: a row that has reached
COMPLETED, FAILED or CANCELLED stays in one of these states, whatever the writers are called with.
-/

namespace Formicary.Lifecycle

open RequestState JobExecutionRepository

/-- The operations that write job executions, with any arguments. A cancellation and a rejection
act on any copy of the request that their caller has read. -/
inductive Write where
  | save (execution : JobExecution)
  | resetStateToReady (id : String) (now : Time)
  | delete (id : String) (now : Time)
  | updateJobRequestAndExecutionState (id : String) (oldState newState : RequestState)
      (currentTask : String) (now : Time)
  | finalizeJobRequestAndExecutionState (id : String) (oldState newState : RequestState)
      (cpuSecs : ℤ) (i : Input)
  | cancel (qc : QueryContext) (req : JobRequest) (now : Time)
  | reject (qc : QueryContext) (req : JobRequest)
      (taskType taskExecutionID rejectedBy comments userKey : String) (now : Time)
  /-- anything that happens to the other tables in between -/
  | elsewhere (db : Database)

def write (db : Database) : Write → Database
  | .save execution => commit db (save db execution)
  | .resetStateToReady id now => commit db (resetStateToReady db id now)
  | .delete id now => commit db (delete db id now)
  | .updateJobRequestAndExecutionState id oldState newState currentTask now =>
    commit db (updateJobRequestAndExecutionState db id oldState newState currentTask now)
  | .finalizeJobRequestAndExecutionState id oldState newState cpuSecs i =>
    commit db (finalizeJobRequestAndExecutionState db id oldState newState
      i.errorMessage i.errorCode cpuSecs i.delay i.retried i.pausedCount i.userKey i.now)
  | .cancel qc req now => commit db (JobRequestRepository.cancelTransaction db qc req now)
  | .reject qc req taskType taskExecutionID rejectedBy comments userKey now =>
    Approval.finalizeRejection db qc req taskType taskExecutionID rejectedBy comments userKey now
  | .elsewhere other => { other with executions := db.executions }

def StaysEnded (e e' : JobExecution) : Prop :=
  e.jobState.isTerminal = true → e'.jobState.isTerminal = true

theorem StaysEnded.refl (e : JobExecution) : StaysEnded e e := id

theorem staysEnded_of_open {e e' : JobExecution}
    (h : (!terminalStates.contains e.jobState) = true) : StaysEnded e e' := by
  intro hend
  have hopen := isTerminal_eq_false_of_not_contains h
  exact absurd (hopen.symm.trans hend) Bool.false_ne_true

variable {db db' : Database} {id : String} {now : Time}

theorem resetStateToReady_staysEnded (h : resetStateToReady db id now = .ok db') :
    db.executions.Evolves StaysEnded db'.executions := by
  rw [(resetStateToReady_eq_ok h).2]
  exact Table.evolves_update StaysEnded.refl fun e _ hp =>
    staysEnded_of_open ((Bool.and_eq_true _ _).mp hp).2

theorem delete_staysEnded (h : delete db id now = .ok db') :
    db.executions.Evolves StaysEnded db'.executions := by
  refine Table.evolves_updateOne? StaysEnded.refl ?_ (delete_ok h).2
  intro e _ _ hend
  exact hend

theorem staysEnded_of_movesBoth {old new : RequestState} {key : String}
    (h : MovesBoth id old new key db db') : db.executions.Evolves StaysEnded db'.executions := by
  refine h.executions.mono ?_
  rintro e e' (⟨-, rfl⟩ | ⟨-, hmoves⟩)
  · exact StaysEnded.refl _
  · exact fun hend => absurd (hmoves.live.symm.trans hend) Bool.false_ne_true

theorem cancelTransaction_staysEnded {qc : QueryContext} {req : JobRequest}
    (h : JobRequestRepository.cancelTransaction db qc req now = .ok db') :
    db.executions.Evolves StaysEnded db'.executions := by
  unfold JobRequestRepository.cancelTransaction at h
  split at h
  · cases h
  split at h
  · cases h
    exact Table.Evolves.refl StaysEnded.refl _
  · cases h
    exact Table.evolves_update StaysEnded.refl fun _ _ _ _ => rfl

def KeepsEnded (db db' : Database) : Prop :=
  ∀ e ∈ db.executions, e.jobState.isTerminal = true →
    ∃ e' ∈ db'.executions, e'.id = e.id ∧ e'.jobState.isTerminal = true

theorem keepsEnded_of_evolves (h : db.executions.Evolves StaysEnded db'.executions) :
    KeepsEnded db db' := by
  intro e he hend
  obtain ⟨e', he', hid⟩ := h.kept e he
  exact ⟨e', he', hid, h.rel he he' hid.symm hend⟩

theorem keepsEnded_commit {result : Except Error Database}
    (h : ∀ db', result = .ok db' → KeepsEnded db db') : KeepsEnded db (commit db result) := by
  cases result with
  | ok db' => exact h db' rfl
  | error => exact fun e he hend => ⟨e, he, rfl, hend⟩

theorem write_keepsEnded (db : Database) (w : Write) : KeepsEnded db (write db w) := by
  cases w with
  | save =>
    refine keepsEnded_commit fun db' h e he hend => ⟨e, ?_, rfl, hend⟩
    obtain ⟨executions, hins, rfl⟩ := save_eq_ok h
    exact (Table.mem_insert? hins).mpr (.inr he)
  | resetStateToReady =>
    exact keepsEnded_commit fun db' h => keepsEnded_of_evolves (resetStateToReady_staysEnded h)
  | delete =>
    exact keepsEnded_commit fun db' h => keepsEnded_of_evolves (delete_staysEnded h)
  | updateJobRequestAndExecutionState =>
    exact keepsEnded_commit fun db' h =>
      keepsEnded_of_evolves (staysEnded_of_movesBoth (updateState_movesBoth h))
  | finalizeJobRequestAndExecutionState =>
    exact keepsEnded_commit fun db' h =>
      keepsEnded_of_evolves (staysEnded_of_movesBoth (finalize_movesBoth h).2)
  | cancel =>
    exact keepsEnded_commit fun db' h => keepsEnded_of_evolves (cancelTransaction_staysEnded h)
  | reject =>
    exact keepsEnded_of_evolves (Table.evolves_update StaysEnded.refl fun _ _ _ _ => rfl)
  | elsewhere => exact fun e he hend => ⟨e, he, rfl, hend⟩

/-- An execution that has ended is never seen in a state that is not an end again. -/
theorem ended_of_writes (db : Database) (ws : List Write) {e : JobExecution}
    (he : e ∈ db.executions) (hend : e.jobState.isTerminal = true) :
    ∃ e' ∈ (ws.foldl write db).executions, e'.id = e.id ∧ e'.jobState.isTerminal = true := by
  induction ws generalizing db e with
  | nil => exact ⟨e, he, rfl, hend⟩
  | cons w ws ih =>
    obtain ⟨e₁, he₁, hid₁, hend₁⟩ := write_keepsEnded db w e he hend
    obtain ⟨e', he', hid', hend'⟩ := ih (write db w) he₁ hend₁
    exact ⟨e', he', hid'.trans hid₁, hend'⟩

def completedExecution : JobExecution :=
  { newJobExecution (submitted "r1") "e1" 0 with jobState := completed }

theorem ended_completedExecution : let admin := QueryContext.newQueryContext none
    let db := { Database.empty with executions := ⟨[completedExecution], by decide⟩ }
    let ws : List Write :=
      [.resetStateToReady "e1" 1, .cancel admin { submitted "r1" with jobExecutionID := "e1" } 2,
        .save (newJobExecution (submitted "r1") "e2" 3),
        .updateJobRequestAndExecutionState "e1" completed executing "" 4]
    ∃ e ∈ (ws.foldl write db).executions, e.id = "e1" ∧ e.jobState.isTerminal = true :=
  ended_of_writes _ _ (e := completedExecution) (List.mem_singleton.mpr rfl) rfl

end Formicary.Lifecycle

import Formicary.Library.Checked
import Formicary.Model.Lifecycle
import Formicary.Verification.Execution.Loading
import Formicary.Verification.Execution.Statements

/-! # Steps that revive nothing

Most statements of the repositories neither bring an execution back to life nor touch the
reference from a request to its execution, and they keep a request that waits for the scheduler,
or has ended, where only the scheduler or a restart can move it. -/

namespace Formicary.Lifecycle

open RequestState JobExecutionRepository JobRequestRepository Table.Evolves Table

def Live (e : JobExecution) : Prop :=
  e.active = true ∧ e.jobState.isTerminal = false

instance : DecidablePred Live := fun e =>
  inferInstanceAs (Decidable (e.active = true ∧ e.jobState.isTerminal = false))

def Parked (rs : RequestState) : Prop :=
  rs = pending ∨ rs = paused ∨ rs.isTerminal = true

instance : DecidablePred Parked := fun rs =>
  inferInstanceAs (Decidable (rs = pending ∨ rs = paused ∨ rs.isTerminal = true))

def QuietExecution (e e' : JobExecution) : Prop :=
  e.jobRequestID = e'.jobRequestID ∧ (Live e' → Live e)

def QuietRequest (r r' : JobRequest) : Prop :=
  r.jobExecutionID = r'.jobExecutionID ∧ (Parked r.jobState → Parked r'.jobState) ∧
    (r.jobState.isTerminal = true → r'.jobState.isTerminal = true)

theorem QuietExecution.refl (e : JobExecution) : QuietExecution e e := ⟨rfl, id⟩

theorem QuietRequest.refl (r : JobRequest) : QuietRequest r r := ⟨rfl, id, id⟩

/-- A quiet change of the database. -/
structure Quiet (db db' : Database) : Prop where
  executions : db.executions.Evolves QuietExecution db'.executions
  requests : db.requests.Evolves QuietRequest db'.requests

theorem Quiet.refl (db : Database) : Quiet db db :=
  ⟨Table.Evolves.refl QuietExecution.refl _, Table.Evolves.refl QuietRequest.refl _⟩

variable {db : Database}

theorem quiet_commit {result : Except Error Database}
    (h : ∀ db', result = .ok db' → Quiet db db') : Quiet db (commit db result) := by
  cases result with
  | ok db' => exact h db' rfl
  | error => exact Quiet.refl db

variable {r : JobRequest} {r' : JobRequest}

theorem quietRequest_of_parked
    (hid : r.jobExecutionID = r'.jobExecutionID) (h : r.jobState.isTerminal = false)
    (hp : Parked r'.jobState) : QuietRequest r r' :=
  ⟨hid, fun _ => hp, fun ht => by simp [h] at ht⟩

variable {e : JobExecution} {e' : JobExecution}

theorem quietExecution_of_live (hid : e.jobRequestID = e'.jobRequestID)
    (ha : e'.active = e.active) (h : e.jobState.isTerminal = false) : QuietExecution e e' :=
  ⟨hid, fun hl => ⟨ha ▸ hl.1, h⟩⟩

theorem quietExecution_of_terminal
    (hid : e.jobRequestID = e'.jobRequestID) (h : e'.jobState.isTerminal = true) :
    QuietExecution e e' :=
  ⟨hid, fun hl => by simp [hl.2] at h⟩

variable {old new : RequestState} {key : String}

theorem quietRequest_of_moves (h : RequestMoves old new key r r')
    (hq : ¬ Parked old ∨ old.isTerminal = false ∧ Parked new) : QuietRequest r r' := by
  rcases hq with hq | ⟨hlive, hparked⟩
  · rw [← h.source] at hq
    exact ⟨h.jobExecutionID.symm, fun hp => absurd hp hq, fun ht => absurd (.inr (.inr ht)) hq⟩
  · exact quietRequest_of_parked h.jobExecutionID.symm (h.source ▸ hlive) (h.target ▸ hparked)

variable {db' : Database} {id : String} {now : Time}

theorem quiet_of_requests (hexecs : db'.executions = db.executions)
    (hreqs : db.requests.Evolves QuietRequest db'.requests) : Quiet db db' := by
  refine ⟨?_, hreqs⟩
  rw [hexecs]
  exact refl QuietExecution.refl _

theorem quiet_of_movesBoth (h : MovesBoth id old new key db db')
    (hq : ¬ Parked old ∨ old.isTerminal = false ∧ Parked new) : Quiet db db' := by
  refine ⟨h.executions.mono ?_, h.requests.mono ?_⟩
  · rintro e e' (⟨-, rfl⟩ | ⟨-, hmoves⟩)
    · exact QuietExecution.refl _
    · exact quietExecution_of_live hmoves.jobRequestID.symm hmoves.active hmoves.live
  · rintro r r' (rfl | ⟨-, hmoves, -⟩)
    · exact QuietRequest.refl _
    · exact quietRequest_of_moves hmoves hq

theorem quiet_of_updatesState (h : UpdatesState id old new key db db')
    (hq : ¬ Parked old ∨ new = failed) : Quiet db db' := by
  refine quiet_of_requests h.executions (h.requests.mono ?_)
  rintro r r' (rfl | ⟨-, hmoves, -⟩)
  · exact QuietRequest.refl _
  refine quietRequest_of_moves hmoves (hq.imp_right ?_)
  -- the transition table lets no request that has ended go to FAILED
  rintro rfl
  have hallow := h.allowed
  refine ⟨?_, .inr (.inr rfl)⟩
  cases old <;> first | rfl | exact absurd hallow (by decide)

variable {qc : QueryContext}

theorem cancelTransaction_quiet {req : JobRequest} (h : cancelTransaction db qc req now = .ok db') :
    Quiet db db' := by
  unfold cancelTransaction at h
  split at h
  · cases h
  next requests hupd =>
  have hreq : db.requests.Evolves QuietRequest requests := by
    refine evolves_updateOne? QuietRequest.refl ?_ hupd
    intro r _ hr
    have hr' := (Bool.and_eq_true _ _).mp ((Bool.and_eq_true _ _).mp hr).1
    exact quietRequest_of_parked rfl (isTerminal_eq_false_of_not_contains hr'.2) (.inr (.inr rfl))
  split at h
  · cases h
    exact ⟨refl QuietExecution.refl _, hreq⟩
  cases h
  refine ⟨evolves_update QuietExecution.refl ?_, hreq⟩
  intro e _ _
  exact quietExecution_of_terminal rfl rfl

theorem requeueOrphanRequests_quiet (db : Database) (staleInterval now : Time) :
    Quiet db (requeueOrphanRequests db staleInterval now) := by
  refine ⟨refl QuietExecution.refl _, evolves_update QuietRequest.refl ?_⟩
  intro r _ hr
  have hstate := ((Bool.and_eq_true _ _).mp hr).1
  have hrun : r.jobState = started ∨ r.jobState = ready ∨ r.jobState = executing := by
    simpa [orphanStates] using hstate
  refine quietRequest_of_parked rfl ?_ (.inl rfl)
  rcases hrun with h | h | h <;> rw [h] <;> rfl

theorem incrementScheduleAttempts_quiet {secs : Time} {decrPriority : ℤ} {errorMessage : String}
    (h : incrementScheduleAttempts db id secs decrPriority errorMessage now =
      .ok db') : Quiet db db' := by
  obtain ⟨hexecs, hreqs⟩ := incrementScheduleAttempts_eq_ok h
  refine quiet_of_requests hexecs (hreqs.mono ?_)
  rintro r r' (rfl | rfl) <;> exact ⟨rfl, fun h => h, fun h => h⟩

theorem resetStateToReady_quiet (h : resetStateToReady db id now = .ok db') : Quiet db db' := by
  rw [(resetStateToReady_eq_ok h).2]
  refine ⟨evolves_update QuietExecution.refl ?_, refl QuietRequest.refl _⟩
  intro e _ hp
  have hlive := ((Bool.and_eq_true _ _).mp hp).2
  exact quietExecution_of_live rfl rfl (isTerminal_eq_false_of_not_contains hlive)

theorem get_tables {loaded : JobExecutionRepository.LoadedExecution}
    (h : get db id now = .ok (loaded, db')) :
    db'.requests = db.requests ∧ db'.executions = db.executions ∧
      db.executions.find? id = some loaded.execution := by
  have hload := get_eq_ok.mp h
  rw [hload.tables]
  exact ⟨rfl, rfl, hload.execution⟩

theorem get_of_active (he : e ∈ db.executions)
    (hne : e.id ≠ "") (hact : e.active = true) (now : Time) :
    ∃ p, JobExecutionRepository.get db e.id now = .ok p := by
  have hfind : db.executions.find? e.id = some e := find?_eq_some_iff.mpr ⟨he, rfl⟩
  simp [JobExecutionRepository.get, hne, hfind, hact]

theorem delete_ok (h : delete db id now = .ok db') : db'.requests = db.requests ∧
      db.executions.updateOne? (fun e => e.id == id && e.active)
        (fun e => { e with active := false, updatedAt := now }) (fun _ => rfl) =
          some db'.executions := by
  obtain ⟨⟨loaded, db₁⟩, hget, h⟩ := Checked.bind_eq_ok.mp h
  obtain ⟨hreq, hexec, -⟩ := get_tables hget
  simp only at h
  split at h <;> cases h
  next executions hupd =>
  rw [hexec] at hupd
  exact ⟨hreq, hupd⟩

theorem delete_quiet (h : delete db id now = .ok db') : Quiet db db' := by
  obtain ⟨hreq, hupd⟩ := delete_ok h
  refine ⟨evolves_updateOne? QuietExecution.refl ?_ hupd, ?_⟩
  · intro e _ _
    exact ⟨rfl, fun hl => by simp [Live] at hl⟩
  · rw [hreq]
    exact refl QuietRequest.refl _

theorem waitingRequest_state {request : JobRequest}
    (h : Approval.waitingRequest qc request r = true) : r.jobState = manualApprovalRequired := by
  have h' := (Bool.and_eq_true _ _).mp ((Bool.and_eq_true _ _).mp h).1
  exact beq_iff_eq.mp h'.2

theorem finalizeRejection_quiet (db : Database) (qc : QueryContext) (request : JobRequest)
    (taskType taskExecutionID rejectedBy comments userKey : String) (now : Time) :
    Quiet db (Approval.finalizeRejection db qc request taskType taskExecutionID rejectedBy comments
      userKey now) := by
  refine ⟨evolves_update QuietExecution.refl ?_, evolves_update QuietRequest.refl ?_⟩
  · intro e _ _
    exact quietExecution_of_terminal rfl rfl
  · intro r _ hr
    exact quietRequest_of_parked rfl (by rw [waitingRequest_state hr]; rfl) (.inr (.inr rfl))

end Formicary.Lifecycle

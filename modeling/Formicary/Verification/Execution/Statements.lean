import Formicary.Model.JobExecutionRepository
import Formicary.Model.JobRequestRepository

/-! # What a statement writes

A statement that succeeds replaces the rows that it selects and leaves all others alone. -/

namespace Formicary

open RequestState Table Bool

/-- A request goes from one state to another, and to the key if it ends. -/
structure RequestMoves (old new : RequestState) (key : String) (r r' : JobRequest) : Prop where
  source : r.jobState = old
  target : r'.jobState = new
  jobExecutionID : r'.jobExecutionID = r.jobExecutionID
  jobDefinitionID : r'.jobDefinitionID = r.jobDefinitionID
  userKey : r'.userKey = if new.isTerminal then key else r.userKey

structure ExecutionMoves (new : RequestState) (e e' : JobExecution) : Prop where
  live : e.jobState.isTerminal = false
  target : e'.jobState = new
  jobRequestID : e'.jobRequestID = e.jobRequestID
  active : e'.active = e.active

/-- What `UpdateJobState` writes. -/
structure UpdatesState (id : String) (old new : RequestState) (key : String)
    (db db' : Database) : Prop where
  allowed : old.canTransitionTo new = true
  executions : db'.executions = db.executions
  requests : db.requests.Evolves (fun r r' => r' = r ∨ r.id = id ∧
    RequestMoves old new key r r' ∧ (new ≠ executing → r'.hardRestart = r.hardRestart)) db'.requests

/-- What the statements write that move a request together with its execution. -/
structure MovesBoth (id : String) (old new : RequestState) (key : String)
    (db db' : Database) : Prop where
  requests : db.requests.Evolves (fun r r' => r' = r ∨ r.jobExecutionID = some id ∧
    RequestMoves old new key r r' ∧ r'.hardRestart = r.hardRestart) db'.requests
  executions : db.executions.Evolves (fun e e' => e.id ≠ id ∧ e' = e ∨
    e.id = id ∧ ExecutionMoves new e e') db'.executions

theorem isTerminal_eq_false_of_not_contains {rs : RequestState}
    (h : (!terminalStates.contains rs) = true) : rs.isTerminal = false := by
  cases rs <;> first | rfl | exact absurd h (by decide)

section JobRequestRepository

open JobRequestRepository

variable {db db' : Database} {id errorMessage errorCode userKey : String} {old new : RequestState}
  {now delay : Time} {retried pausedCount : ℕ}

theorem updateJobState_updates
    (h : updateJobState db id (some old) new errorMessage errorCode delay retried pausedCount
      userKey now = .ok db') : UpdatesState id old new userKey db db' := by
  unfold updateJobState at h
  simp only at h
  split at h
  · cases h
  next hallow =>
  split at h <;> cases h
  next requests hupd =>
  refine ⟨by simpa using hallow, rfl, evolves_updateOne? (fun _ => .inl rfl) ?_ hupd⟩
  intro r _ hsel
  obtain ⟨hid, hstate⟩ := (and_eq_true _ _).mp hsel
  refine .inr ⟨beq_iff_eq.mp hid, ⟨beq_iff_eq.mp hstate, rfl, rfl, rfl, rfl⟩, fun hnew => ?_⟩
  simp [updateJobStateColumns, hnew]

theorem setReadyToExecute_eq_ok {execID : String} {last : Option String}
    (h : setReadyToExecute db id execID last now = .ok db') :
    (∃ e ∈ db.executions, e.id = execID) ∧ (∃ r ∈ db.requests, r.id = id) ∧
      db'.executions = db.executions ∧ db'.tasks = db.tasks ∧
      db.requests.Evolves (fun r r' => r.id ≠ id ∧ r' = r ∨ r.id = id ∧ r' = { r with
        jobState := ready, jobExecutionID := some execID, lastJobExecutionID := last,
        updatedAt := now }) db'.requests := by
  unfold setReadyToExecute at h
  split at h
  · cases h
  split at h
  · cases h
  split at h
  · cases h
  next execution hfind =>
  split at h
  · next requests hupd =>
    cases h
    have hsel : ∀ r : JobRequest, (r.id == id && (r.jobState == pending || r.jobState == paused)) =
        true → r.id = id :=
      fun r hr => beq_iff_eq.mp ((and_eq_true _ _).mp hr).1
    obtain ⟨r, hr, hpr⟩ := exists_of_updateOne? hupd
    refine ⟨⟨execution, find?_eq_some_iff.mp hfind⟩, ⟨r, hr, hsel r hpr⟩, rfl, rfl, ?_⟩
    refine (evolves_updateOne?_key (k := id) hsel hupd).mono ?_
    rintro r r' (hsame | ⟨hid, -, rfl⟩)
    · exact .inl hsame
    · exact .inr ⟨hid, rfl⟩
  · split at h <;> cases h

theorem restart_eq_ok {qc : QueryContext} {hard : Bool} {newJobDefinitionID : String}
    (h : restart db qc id hard newJobDefinitionID now = .ok db') :
    db'.executions = db.executions ∧
      db.requests.Evolves (fun r r' => r.id ≠ id ∧ r' = r ∨ r.id = id ∧ r'.jobState = pending ∧
        r'.jobExecutionID = none ∧ r'.userKey = r.userKey) db'.requests := by
  unfold restart at h
  split at h <;> cases h
  next requests hupd =>
  refine ⟨rfl, (evolves_updateOne?_key (k := id) ?_ hupd).mono ?_⟩
  · intro r hr
    exact beq_iff_eq.mp ((and_eq_true _ _).mp ((and_eq_true _ _).mp hr).1).1
  · rintro r r' (⟨hne, rfl⟩ | ⟨hid, _, rfl⟩)
    · exact .inl ⟨hne, rfl⟩
    · exact .inr ⟨hid, rfl, rfl, rfl⟩

theorem incrementScheduleAttempts_eq_ok {secs : Time} {decrPriority : ℤ}
    (h : incrementScheduleAttempts db id secs decrPriority errorMessage now = .ok db') :
    db'.executions = db.executions ∧ db.requests.Evolves (fun r r' => r' = r ∨ r' = { r with
        scheduleAttempts := r.scheduleAttempts + 1, scheduledAt := now + secs,
        jobPriority := r.jobPriority - decrPriority, errorMessage := errorMessage,
        updatedAt := now }) db'.requests := by
  unfold incrementScheduleAttempts at h
  split at h <;> cases h
  next requests hupd =>
  exact ⟨rfl, evolves_updateOne? (fun _ => .inl rfl) (fun _ _ _ => .inr rfl) hupd⟩

end JobRequestRepository

section JobExecutionRepository

open JobExecutionRepository

variable {db db' : Database} {id userKey : String} {old new : RequestState} {now : Time}

theorem save_eq_ok {execution : JobExecution} (h : save db execution = .ok db') :
    ∃ executions, db.executions.insert? execution = some executions ∧
      db' = { db with executions := executions } := by
  unfold save at h
  split at h <;> cases h
  next executions hins =>
  exact ⟨executions, hins, rfl⟩

theorem resetStateToReady_eq_ok (h : resetStateToReady db id now = .ok db') :
    (∃ e ∈ db.executions, e.id = id) ∧ db' = { db with
      executions := db.executions.update
        (fun e => e.id == id && !terminalStates.contains e.jobState)
        (fun e => { e with jobState := ready, updatedAt := now }) (fun _ => rfl) } := by
  unfold resetStateToReady at h
  split at h <;> cases h
  next executions hupd =>
  obtain ⟨e, he, hsel⟩ := exists_of_updateOne? hupd
  rw [(updateOne?_eq_some_iff.mp hupd).2]
  exact ⟨⟨e, he, beq_iff_eq.mp ((and_eq_true _ _).mp hsel).1⟩, rfl⟩

theorem updateBoth_movesBoth
    {setRequest : JobRequest → JobRequest} {hreq : ∀ r, (setRequest r).id = r.id}
    {setExecution : JobExecution → JobExecution} {hexec : ∀ e, (setExecution e).id = e.id}
    {requestError : String}
    (h : updateBoth db id old new setRequest hreq setExecution hexec requestError = .ok db')
    (hrequest : ∀ r, r.jobState = old → RequestMoves old new userKey r (setRequest r) ∧
      (setRequest r).hardRestart = r.hardRestart)
    (hex : ∀ e, e.jobState.isTerminal = false → ExecutionMoves new e (setExecution e)) :
    MovesBoth id old new userKey db db' := by
  unfold updateBoth at h
  split at h
  · cases h
  next requests hupd =>
  split at h <;> cases h
  next executions hupd' =>
  refine ⟨evolves_updateOne? (fun _ => .inl rfl) ?_ hupd,
    (evolves_updateOne?_key (k := id) ?_ hupd').mono ?_⟩
  · intro r _ hsel
    obtain ⟨hid, hstate⟩ := (and_eq_true _ _).mp hsel
    exact .inr ⟨beq_iff_eq.mp hid, hrequest r (beq_iff_eq.mp hstate)⟩
  · intro e hsel
    exact beq_iff_eq.mp ((and_eq_true _ _).mp ((and_eq_true _ _).mp hsel).1).1
  · rintro e e' (hsame | ⟨hid, hsel, rfl⟩)
    · exact .inl hsame
    · have hlive := ((and_eq_true _ _).mp hsel).2
      exact .inr ⟨hid, hex e (isTerminal_eq_false_of_not_contains hlive)⟩

theorem finalize_movesBoth {errorMessage errorCode : String} {cpuSecs : ℤ} {delay : Time}
    {retried pausedCount : ℕ}
    (h : finalizeJobRequestAndExecutionState db id old new errorMessage errorCode cpuSecs delay
      retried pausedCount userKey now = .ok db') :
    new.canFinalize = true ∧ MovesBoth id old new userKey db db' := by
  unfold finalizeJobRequestAndExecutionState at h
  split at h
  · next hnew =>
    exact ⟨hnew, updateBoth_movesBoth h (fun _ hr => ⟨⟨hr, rfl, rfl, rfl, rfl⟩, rfl⟩)
      fun _ he => ⟨he, rfl, rfl, rfl⟩⟩
  · cases h

theorem updateState_movesBoth {currentTask : String}
    (h : updateJobRequestAndExecutionState db id old new currentTask now = .ok db') :
    MovesBoth id old new "" db db' := by
  unfold updateJobRequestAndExecutionState at h
  split at h
  · cases h
  next hnew =>
  exact updateBoth_movesBoth h (fun _ hr => ⟨⟨hr, rfl, rfl, rfl, (if_neg hnew).symm⟩, rfl⟩)
    fun _ he => ⟨he, rfl, rfl, rfl⟩

end JobExecutionRepository

end Formicary

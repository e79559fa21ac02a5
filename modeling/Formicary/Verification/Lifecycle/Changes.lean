import Formicary.Model.Queen
import Formicary.Verification.Lifecycle.Scheduler

/-! # What an action writes

An action adds a row, or moves rows on, or ends a request, most of the time together with the
execution that it refers to. -/

namespace Formicary.Lifecycle

open RequestState Table Option

/-- The key that an action generates for a request that it may end. -/
def Action.userKey : Action → Option String
  | .failExecution i | .failRequest i | .revertRequest i | .finalize _ _ i
  | .updateRequest _ _ i => some i.userKey
  | .reject _ _ _ _ _ _ userKey _ => some userKey
  | _ => none

def Action.endsAlone : Action → Bool
  | .failRequest _ | .cancel .. | .reject .. => true
  | .updateRequest _ u _ => u.newState.isTerminal
  | _ => false

variable {db db' : Database} {qc : QueryContext} {r : JobRequest}

def cancellable (qc : QueryContext) (req r : JobRequest) : Bool :=
  r.id == req.id && !terminalStates.contains r.jobState &&
    qc.orgElseUserWhere false r.userID r.organizationID

theorem cancellable_id {req : JobRequest} (h : cancellable qc req r = true) : r.id = req.id := by
  have h' := (Bool.and_eq_true _ _).mp ((Bool.and_eq_true _ _).mp h).1
  exact beq_iff_eq.mp h'.1

def cancelRow (now : Time) (r : JobRequest) : JobRequest :=
  { r with
    jobState := cancelled
    errorCode := "ERR_JOB_CANCELLED"
    errorMessage := "cancelled by job request"
    updatedAt := now }

theorem cancelTransaction_requests (db : Database) (qc : QueryContext) (req : JobRequest)
    (now : Time) :
    (commit db (JobRequestRepository.cancelTransaction db qc req now)).requests =
      db.requests.update (cancellable qc req) (cancelRow now) fun _ => rfl := by
  unfold JobRequestRepository.cancelTransaction
  split
  · next hupd =>
    exact (update_eq_self
      (not_selected_of_updateOne? (k := req.id) (fun _ => cancellable_id) hupd)).symm
  · next requests hupd =>
    have hreqs := (updateOne?_eq_some_iff.mp hupd).2
    split <;> exact hreqs

/-- What an action may make of a row of the request table. -/
inductive RowWrite (s : State) (db : Database) : Action → JobRequest → JobRequest → Prop
  | same {action : Action} {r : JobRequest} : RowWrite s db action r r
  | postpone {secs decrPriority : ℤ} {i : Input} {r : JobRequest} :
    RowWrite s db (.postpone secs decrPriority i) r { r with
      scheduleAttempts := r.scheduleAttempts + 1, scheduledAt := i.now + secs,
      jobPriority := r.jobPriority - decrPriority, errorMessage := i.errorMessage,
      updatedAt := i.now }
  | marks {now : Time} {execID : String} {last : Option String} {r : JobRequest}
    (hrow : ∃ e ∈ s.db.executions, e.id = execID) :
    RowWrite s db (.markReady now) r { r with
      jobState := ready, jobExecutionID := some execID, lastJobExecutionID := last,
      updatedAt := now }
  | moves {action : Action} {old new : RequestState} {key : String} {r r' : JobRequest}
    (hmoves : RequestMoves old new key r r') (hflag : r'.hardRestart = r.hardRestart)
    (hkey : new.isTerminal = true → action.userKey = some key)
    (hold : Queen.issuedBySupervisor action = true ∨ ∃ req, old = revertState req)
    (hends : new.isTerminal = true → action.endsAlone = true ∨
      ∀ e ∈ db.executions, r.jobExecutionID = some e.id → e.jobState.isTerminal = true) :
    RowWrite s db action r r'
  | reverts {a : Attempt} {i : Input} {key : String} {r r' : JobRequest} (ha : s.current = some a)
    (hid : r.id = a.request.id) (hmoves : RequestMoves ready (revertState a.request) key r r')
    (hflag : r'.hardRestart = r.hardRestart) : RowWrite s db (.revertRequest i) r r'
  | cancel {qc : QueryContext} {req r : JobRequest} {now : Time}
    (hsel : cancellable qc req r = true) : RowWrite s db (.cancel qc req now) r (cancelRow now r)
  | approve {qc : QueryContext} {req r : JobRequest}
    {taskType taskExecutionID approvedBy comments : String} {now : Time}
    (hwaits : Approval.waitingRequest qc req r = true) :
    RowWrite s db (.approve qc req taskType taskExecutionID approvedBy comments now) r
      { r with jobState := pending, errorCode := "", errorMessage := "", updatedAt := now }
  | reject {qc : QueryContext} {req r : JobRequest}
    {taskType taskExecutionID rejectedBy comments userKey message : String} {now : Time}
    (hwaits : Approval.waitingRequest qc req r = true) :
    RowWrite s db (.reject qc req taskType taskExecutionID rejectedBy comments userKey now) r
      { r with
        jobState := failed, errorCode := "ERR_MANUAL_REJECTION", errorMessage := message,
        userKey := userKey, updatedAt := now }
  | restart {qc : QueryContext} {id newJobDefinitionID : String} {hard : Bool} {now : Time}
    {r r' : JobRequest} (hid : r.id = id) (hstate : r'.jobState = pending)
    (hnone : r'.jobExecutionID = none) (hkey : r'.userKey = r.userKey) :
    RowWrite s db (.restart qc id hard newJobDefinitionID now) r r'
  | requeue {staleInterval now : Time} {r : JobRequest}
    (hstale : r.updatedAt < now - staleInterval) :
    RowWrite s db (.requeueOrphans staleInterval now) r
      { r with jobState := pending, scheduledAt := now, updatedAt := now }

variable {s s' : State} {a : Attempt} {action : Action} {phase : Option Phase}

abbrev State.RowsBy (s : State) (action : Action) (db : Database) : Prop :=
  s.db.requests.Evolves (RowWrite s db action) db.requests

theorem rows_same (h : db.requests = s.db.requests) : s.RowsBy action db := by
  rw [State.RowsBy, h]
  exact Table.Evolves.refl (fun _ => .same) _

theorem rows_commit {result : Except Error Database}
    (h : ∀ db, result = .ok db → s.RowsBy action db) : s.RowsBy action (commit s.db result) := by
  cases result with
  | ok db => exact h db rfl
  | error => exact rows_same rfl

section Moves

variable {id key : String} {old new : RequestState}
  (hkey : new.isTerminal = true → action.userKey = some key)
  (hold : Queen.issuedBySupervisor action = true ∨ ∃ req, old = revertState req)
include hkey hold

theorem rows_of_updatesState (hexec : old.canTransitionTo executing = false)
    (halone : new.isTerminal = true → action.endsAlone = true)
    (h : UpdatesState id old new key s.db db) : s.RowsBy action db := by
  refine h.requests.mono ?_
  rintro r r' (rfl | ⟨-, hmoves, hflag⟩)
  · exact .same
  refine .moves hmoves (hflag ?_) hkey hold fun hend => .inl (halone hend)
  rintro rfl
  cases hexec.symm.trans h.allowed

theorem rows_of_movesBoth (h : MovesBoth id old new key s.db db) : s.RowsBy action db := by
  refine h.requests.mono ?_
  rintro r r' (rfl | ⟨hid, hmoves, hflag⟩)
  · exact .same
  refine .moves hmoves hflag hkey hold fun hend => .inr fun e he href => ?_
  obtain ⟨e₀, -, hkey₀, ⟨hne, -⟩ | ⟨-, hmoves'⟩⟩ := h.executions.origin e he
  · exact absurd (hkey₀.trans (some.inj (href.symm.trans hid))) hne
  · rw [hmoves'.target, hend]

end Moves

theorem schedules_rows (ha : s.current = some a) (hsched : Schedules s.db a action db phase) :
    s.RowsBy action db := by
  cases hsched with
  | drop | gaveUp | moved | notReset | notMarked | notFailed | sent | notSent => exact rows_same rfl
  | postpone =>
    refine rows_commit fun db hdb => (incrementScheduleAttempts_eq_ok hdb).2.mono ?_
    rintro r r' (rfl | rfl)
    · exact .same
    · exact .postpone
  | lookup _ hlook => exact rows_same (lookupExecution_spec hlook).1
  | create _ _ _ hsave =>
    obtain ⟨executions, -, rfl⟩ := save_eq_ok hsave
    exact rows_same rfl
  | reset _ _ hreset => exact rows_same (by rw [(resetStateToReady_eq_ok hreset).2])
  | markReady _ hmark =>
    obtain ⟨hrow, -, -, -, hreqs⟩ := setReadyToExecute_eq_ok hmark
    refine hreqs.mono ?_
    rintro r r' (⟨-, rfl⟩ | ⟨-, rfl⟩)
    · exact .same
    · exact .marks hrow
  | failExecution _ hfin =>
    exact rows_of_movesBoth (fun _ => rfl) (.inr ⟨_, rfl⟩) (finalize_movesBoth hfin).2
  | failRequest =>
    refine rows_commit fun db hdb => rows_of_updatesState (fun _ => rfl) (.inr ⟨_, rfl⟩) ?_
      (fun _ => rfl) (updateJobState_updates hdb)
    rcases revertState_cases a.request with h | h | h <;> rw [h] <;> rfl
  | revertRequest =>
    refine rows_commit fun db hdb => (updateJobState_updates hdb).requests.mono ?_
    rintro r r' (rfl | ⟨hid, hmoves, hflag⟩)
    · exact .same
    refine .reverts ha hid hmoves (hflag ?_)
    rcases revertState_cases a.request with h | h | h <;> rw [h] <;> decide
  | deleteExecution => exact rows_commit fun db hdb => rows_same (delete_ok hdb).1

theorem step_rows (hs : step s action = some s') :
    (∃ req, action = .submit req ∧ req.jobState = pending ∧ req.jobExecutionID = none ∧
      s.db.requests.insert? req = some s'.db.requests) ∨ s.RowsBy action s'.db := by
  cases action with
  | submit req =>
    simp only [step] at hs
    split at hs
    · next hnew =>
      obtain ⟨requests, hins, rfl⟩ := map_eq_some_iff.mp hs
      exact .inl ⟨req, rfl, hnew.2.1, hnew.2.2, hins⟩
    · cases hs
  | nextSchedulable | pick | read =>
    simp only [step] at hs
    split at hs <;> cases hs
    exact .inr (rows_same rfl)
  | setExecuting | requireApproval =>
    cases hs
    exact .inr (rows_commit fun db hdb =>
      rows_of_movesBoth (fun hend => by cases hend) (.inl rfl) (updateState_movesBoth hdb))
  | finalize =>
    cases hs
    exact .inr (rows_commit fun db hdb =>
      rows_of_movesBoth (fun _ => rfl) (.inl rfl) (finalize_movesBoth hdb).2)
  | updateRequest id u =>
    cases hs
    exact .inr (rows_commit fun db hdb => rows_of_updatesState (fun _ => rfl) (.inl rfl)
      (by cases u <;> rfl) (fun hend => hend) (updateJobState_updates hdb))
  | cancel =>
    simp only [step] at hs
    split at hs <;> cases hs
    refine .inr ?_
    rw [State.RowsBy, cancelTransaction_requests]
    exact evolves_update (fun _ => .same) fun r _ hsel => .cancel hsel
  | approve =>
    simp only [step] at hs
    split at hs <;> cases hs
    exact .inr (evolves_update (fun _ => .same) fun r _ hwaits => .approve hwaits)
  | reject =>
    simp only [step] at hs
    split at hs <;> cases hs
    exact .inr (evolves_update (fun _ => .same) fun r _ hwaits => .reject hwaits)
  | restart =>
    cases hs
    refine .inr (rows_commit fun db hdb => (restart_eq_ok hdb).2.mono ?_)
    rintro r r' (⟨-, rfl⟩ | ⟨hid, hstate, hnone, hkey⟩)
    · exact .same
    · exact .restart hid hstate hnone hkey
  | requeueOrphans =>
    cases hs
    exact .inr (evolves_update (fun _ => .same)
      fun r _ hsel => .requeue (of_decide_eq_true ((Bool.and_eq_true _ _).mp hsel).2))
  | _ =>
    obtain ⟨a, ha, hstep⟩ := bind_eq_some_iff.mp hs
    obtain ⟨db, phase, hsched, rfl⟩ := schedules_of_scheduleStep hstep
    exact .inr (schedules_rows ha hsched)

/-- An action adds an execution, or revives none. -/
inductive ExecutionsBy (db db' : Database) : Prop
  | save {execution : JobExecution} (hrequests : db'.requests = db.requests)
    (hinsert : db.executions.insert? execution = some db'.executions)
  | quiet (h : db.executions.Evolves QuietExecution db'.executions)

theorem ExecutionsBy.same (h : db'.executions = db.executions) : ExecutionsBy db db' := by
  refine .quiet ?_
  rw [h]
  exact Table.Evolves.refl QuietExecution.refl _

theorem ExecutionsBy.kept (h : ExecutionsBy db db') {id : String}
    (hrow : ∃ e ∈ db.executions, e.id = id) : ∃ e ∈ db'.executions, e.id = id := by
  cases h with
  | save _ hins =>
    obtain ⟨e, he, hid⟩ := hrow
    exact ⟨e, (mem_insert? hins).mpr (.inr he), hid⟩
  | quiet h => exact h.exists_key hrow

theorem executions_commit {result : Except Error Database}
    (h : ∀ db', result = .ok db' → ExecutionsBy db db') : ExecutionsBy db (commit db result) := by
  cases result with
  | ok db' => exact h db' rfl
  | error => exact .same rfl

theorem schedules_executions (hsched : Schedules db a action db' phase) : ExecutionsBy db db' := by
  cases hsched with
  | drop | gaveUp | moved | notReset | notMarked | notFailed | sent | notSent => exact .same rfl
  | postpone =>
    exact executions_commit fun db hdb => .same (incrementScheduleAttempts_eq_ok hdb).1
  | lookup _ hlook => exact .same (lookupExecution_spec hlook).2.1
  | create _ _ _ hsave =>
    obtain ⟨executions, hins, rfl⟩ := save_eq_ok hsave
    exact .save rfl hins
  | reset _ _ hreset => exact .quiet (resetStateToReady_quiet hreset).executions
  | markReady _ hmark => exact .same (setReadyToExecute_ok hmark).1
  | failExecution _ hfin =>
    exact .quiet (quiet_of_movesBoth (finalize_movesBoth hfin).2
      (.inr ⟨revertState_not_terminal, by decide⟩)).executions
  | failRequest | revertRequest =>
    exact executions_commit fun db hdb => .same (updateJobState_updates hdb).executions
  | deleteExecution => exact executions_commit fun db hdb => .quiet (delete_quiet hdb).executions

theorem step_executions (hs : step s action = some s') : ExecutionsBy s.db s'.db := by
  cases steps_of_step hs with
  | submit | nextSchedulable | pick => exact .same rfl
  | restart hres => exact .same (restart_eq_ok hres).1
  | quiet hquiet => exact .quiet hquiet.executions
  | schedules _ hsched => exact schedules_executions hsched

end Formicary.Lifecycle

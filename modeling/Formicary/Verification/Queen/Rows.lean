import Formicary.Verification.Lifecycle.Changes
import Formicary.Verification.Lifecycle.Ownership
import Formicary.Verification.Supervisor.Settlement

/-! # The requests that an operation stops

A request can run while it is READY or EXECUTING. -/

namespace Formicary

open RequestState Lifecycle Database Option Table

def RequestState.runnable (rs : RequestState) : Bool :=
  rs == ready || rs == executing

def Database.runnable (db : Database) (requestID : String) : Bool :=
  (db.requests.find? requestID).any fun req => req.jobState.runnable

def Stops (db : Database) (p : String → Prop) (db' : Database) : Prop :=
  ∀ requestID, db.runnable requestID = true → db'.runnable requestID = true ∨ p requestID

/-- A quiet change that stops at most one request. -/
structure Serves (requestID : String) (db db' : Database) : Prop where
  quiet : Quiet db db'
  stops : Stops db (· = requestID) db'

section Stops

variable {db db' : Database} {p : String → Prop} {requestID : String}

theorem Database.runnable_iff : db.runnable requestID = true ↔
      ∃ req ∈ db.requests, req.id = requestID ∧ req.jobState.runnable = true := by
  unfold runnable
  rw [any_eq_true]
  constructor
  · rintro ⟨req, hfind, hstate⟩
    obtain ⟨hmem, hid⟩ := find?_eq_some_iff.mp hfind
    exact ⟨req, hmem, hid, hstate⟩
  · rintro ⟨req, hmem, hid, hstate⟩
    exact ⟨req, find?_eq_some_iff.mpr ⟨hmem, hid⟩, hstate⟩

theorem Stops.mono {p' : String → Prop} (h : Stops db p db') (hp : ∀ id, p id → p' id) :
    Stops db p' db' :=
  fun r hr => (h r hr).imp_right (hp r)

theorem stops_of_evolves {R : JobRequest → JobRequest → Prop}
    (h : db.requests.Evolves R db'.requests)
    (hR : ∀ req ∈ db.requests, ∀ req', R req req' → req.jobState.runnable = true →
      req'.jobState.runnable = true ∨ p req.id) : Stops db p db' := by
  intro id hid
  obtain ⟨req, hmem, rfl, hstate⟩ := runnable_iff.mp hid
  obtain ⟨req', hmem', hkey, hrel⟩ := h.image hmem
  exact (hR req hmem req' hrel hstate).imp
    (fun hstate' => runnable_iff.mpr ⟨req', hmem', hkey, hstate'⟩) (fun hp => hp)

theorem stops_of_requests (h : db'.requests = db.requests) : Stops db p db' := by
  intro id hid
  unfold Database.runnable at hid ⊢
  rw [h]
  exact .inl hid

variable {result : Except Error Database}

theorem stops_commit
    (h : ∀ db', result = .ok db' → Stops db p db') : Stops db p (commit db result) := by
  cases result with
  | ok db' => exact h db' rfl
  | error => exact stops_of_requests rfl

theorem Serves.refl (requestID : String) (db : Database) : Serves requestID db db :=
  ⟨Quiet.refl db, stops_of_requests rfl⟩

end Stops

section Statements

variable {db db' : Database} {id requestID key : String} {old new : RequestState}

theorem stops_of_updatesState (h : UpdatesState id old new key db db') :
    Stops db (fun r => r = id ∧ old.runnable = true) db' := by
  refine stops_of_evolves h.requests ?_
  rintro req _ req' (rfl | ⟨hid, hmoves, -⟩) hrun
  · exact .inl hrun
  · exact .inr ⟨hid, hmoves.source ▸ hrun⟩

theorem stops_of_movesBoth (h : MovesBoth id old new key db db') :
    Stops db (fun r => old.runnable = true ∧ new.runnable = false ∧
      ∃ req ∈ db.requests, req.id = r ∧ req.jobExecutionID = some id) db' := by
  refine stops_of_evolves h.requests ?_
  rintro req hmem req' (rfl | ⟨hid, hmoves, -⟩) hrun
  · exact .inl hrun
  rw [hmoves.target]
  cases hnew : new.runnable with
  | true => exact .inl rfl
  | false => exact .inr ⟨hmoves.source ▸ hrun, rfl, req, hmem, rfl, hid⟩

theorem setReadyToExecute_runnable {execID : String} {last : Option String} {now : Time}
    (h : JobRequestRepository.setReadyToExecute db id execID last now = .ok db') :
    db'.runnable id = true := by
  obtain ⟨-, ⟨req, hmem, hid⟩, -, -, hreqs⟩ := setReadyToExecute_eq_ok h
  obtain ⟨req', hmem', hkey, ⟨hne, -⟩ | ⟨-, rfl⟩⟩ := hreqs.image hmem
  · exact absurd hid hne
  · exact runnable_iff.mpr ⟨_, hmem', hkey.trans hid, rfl⟩

theorem resetStateToReady_error {now : Time} {err : Error}
    (h : JobExecutionRepository.resetStateToReady db id now = .error err) :
    ∀ row ∈ db.executions, row.id = id → row.jobState ∈ terminalStates := by
  intro row hrow hid
  unfold JobExecutionRepository.resetStateToReady at h
  split at h
  · cases h
  next hnone =>
  have hsel := not_selected_of_updateOne? (k := id) (fun _ h => by simp_all) hnone row hrow
  simpa [hid] using hsel

theorem get_id {qc : QueryContext} {req : JobRequest}
    (h : JobRequestRepository.get db qc id = .ok req) : req.id = id :=
  (find?_eq_some_iff.mp (JobRequestRepository.request_of_get h).2.1).2

theorem referring_eq_owner (hrefers : ∀ r ∈ db.requests, Refers db r) (howns : Owns db requestID id)
    {r : String} (h : ∃ req ∈ db.requests, req.id = r ∧ req.jobExecutionID = some id) :
    r = requestID := by
  obtain ⟨req, hmem, rfl, hid⟩ := h
  exact (hrefers req hmem id hid).unique howns

end Statements

namespace JobStateMachine

variable {m m' : JobStateMachine}

/-- The operation is one on the rows of the machine's own job. -/
structure Handles (m m' : JobStateMachine) : Prop where
  request : m'.request.id = m.request.id
  execution : m'.execution.id = m.execution.id
  rows : Serves m.request.id m.db m'.db

theorem handles_of_db (hreq : m'.request.id = m.request.id)
    (hex : m'.execution.id = m.execution.id) (hdb : m'.db = m.db) : Handles m m' :=
  ⟨hreq, hex, hdb ▸ Serves.refl _ _⟩

theorem Closes.handles {old : RequestState} (h : Closes old m m')
    (hrefers : ∀ r ∈ m.db.requests, Refers m.db r)
    (howns : Owns m.db m.request.id m.execution.id) (hold : ¬ Parked old) : Handles m m' := by
  refine ⟨h.request, h.execution, ?_⟩
  cases h.rows with
  | same hdb => exact hdb ▸ Serves.refl _ _
  | both _ hmoves =>
    refine ⟨quiet_of_movesBoth hmoves (.inl hold), ?_⟩
    exact (stops_of_movesBoth hmoves).mono fun r hr => referring_eq_owner hrefers howns hr.2.2
  | alone _ hupds =>
    exact ⟨quiet_of_updatesState hupds (.inl hold),
      (stops_of_updatesState hupds).mono fun r hr => hr.1⟩

theorem restartJobBackToPendingPaused_handles (m : JobStateMachine) (err : String) (c : Clock) :
    Handles m (m.restartJobBackToPendingPaused err c).1 := by
  refine handles_of_db ?_ ?_ (m.restartJobBackToPendingPaused_refused c err)
  · simp [restartJobBackToPendingPaused]
  · simp [restartJobBackToPendingPaused]

theorem setJobStatusToExecuting_handles (m : JobStateMachine) (c : Clock) :
    Handles m (m.setJobStatusToExecuting c).1 ∧
      Stops m.db (fun _ => False) (m.setJobStatusToExecuting c).1.db ∧
      ∀ err, (m.setJobStatusToExecuting c).2 = some err → (m.setJobStatusToExecuting c).1 = m := by
  unfold setJobStatusToExecuting
  split
  · next db hok =>
    have hstops : Stops m.db (fun _ => False) db :=
      (stops_of_movesBoth (updateState_movesBoth hok)).mono fun r hr => by
        have hfalse := hr.2.1
        cases hfalse
    have hquiet := quiet_of_movesBoth (updateState_movesBoth hok) (.inl (by decide))
    refine ⟨⟨rfl, rfl, hquiet, ?_⟩, hstops, ?_⟩
    · exact hstops.mono fun _ hfalse => hfalse.elim
    · rintro err herr
      cases herr
  · exact ⟨handles_of_db rfl rfl rfl, stops_of_requests rfl, fun _ _ => rfl⟩

def announced (m : JobStateMachine) : Prop :=
  ∃ state : RequestState, state.isTerminal = true ∧ .published state ∈ m.effects

theorem announced_publish (h : m.execution.jobState.isTerminal = true) : m.publish.announced :=
  ⟨_, h, List.mem_cons_self⟩

theorem launchFailed_announced (m : JobStateMachine) (err : String) (c : Clock) :
    (m.launchFailed err c).1.announced := by
  have hstate := (m.failed_spec c ready false err "").execution
  exact announced_publish (congrArg isTerminal hstate)

end JobStateMachine

namespace JobSupervisor

open JobStateMachine

variable {w : Workflow} {s s' : JobSupervisor} {c : Clock}

def Accounts (s s' : JobSupervisor) : Prop :=
  Stops s.machine.db (fun _ => False) s'.machine.db ∨ s'.machine.announced ∨
    s.releasesOnProceed = true ∨ ∃ taskType, s.location = .approval taskType

section Proceed

variable (hrefers : ∀ r ∈ s.machine.db.requests, Refers s.machine.db r)
  (howns : Owns s.machine.db s.machine.request.id s.machine.execution.id)
include hrefers howns

theorem start_accounts (hloc : s.location = .start) (h : s.proceed w c = some s') :
    Handles s.machine s'.machine ∧ Accounts s s' := by
  obtain ⟨hhand, hstops, herror⟩ := s.machine.setJobStatusToExecuting_handles c
  unfold proceed at h
  rw [hloc] at h
  dsimp only at h
  split at h
  · next m hset =>
    cases h
    rw [hset] at hhand hstops
    exact ⟨hhand, .inl hstops⟩
  next m err hset =>
  cases h
  rw [hset] at herror
  cases herror err rfl
  exact ⟨(launchFailed_closes _).handles hrefers howns (by decide),
    .inr (.inl (launchFailed_announced _ _ _))⟩

theorem conclude_accounts {err : String} (hloc : s.location = .conclude err) :
    Handles s.machine (s.conclude err c).machine ∧ Accounts s (s.conclude err c) := by
  have hrels : s.releasesOnProceed = (s.errorCode == ErrorCodes.restartJob ||
      s.errorCode == ErrorCodes.pauseJob && s.machine.execution.jobState == executing) := by
    unfold releasesOnProceed
    rw [hloc]
  unfold conclude
  split
  · next hcode =>
    exact ⟨restartJobBackToPendingPaused_handles _ err c,
      .inr (.inr (.inl (by rw [hrels, hcode]; rfl)))⟩
  split
  · next hcode =>
    refine ⟨pauseJob_closes.handles hrefers howns (by decide), ?_⟩
    by_cases hstate : s.machine.execution.jobState = executing
    · exact .inr (.inr (.inl (by rw [hrels, hcode, hstate]; rfl)))
    refine .inl (stops_of_requests ?_)
    dsimp only
    rw [pauseJob_of_not_executing _ c hstate]
  split
  · exact ⟨handles_of_db rfl rfl rfl, .inl (stops_of_requests rfl)⟩
  refine ⟨(executionFailed_closes _ _).handles hrefers howns (by decide), ?_⟩
  cases hterm : s.machine.execution.jobState.isTerminal with
  | true =>
    refine .inl (stops_of_requests ?_)
    rw [executionFailed_of_terminal _ c _ _ hterm]
  | false =>
    refine .inr (.inl ?_)
    simp only [executionFailed, hterm, Bool.false_eq_true, if_false]
    refine announced_publish ?_
    rw [(s.machine.failed_spec c executing false err _).execution]
    rfl

theorem proceed_accounts (h : s.proceed w c = some s') :
    Handles s.machine s'.machine ∧ Accounts s s' := by
  cases proceeds_of_proceed h with
  | launches hl | unlaunched hl => exact start_accounts hrefers howns hl h
  | passes h =>
    have hglide := Supervision.glides_of_passes h
    exact ⟨handles_of_db hglide.request (congrArg _ hglide.execution) hglide.db,
      .inl (stops_of_requests (by rw [hglide.db]))⟩
  | @asks taskType db hl hdb =>
    have hmoves := updateState_movesBoth hdb
    refine ⟨⟨rfl, rfl, quiet_of_movesBoth hmoves (.inl (by decide)), ?_⟩,
      .inr (.inr (.inr ⟨taskType, hl⟩))⟩
    exact (stops_of_movesBoth hmoves).mono fun r hr => referring_eq_owner hrefers howns hr.2.2
  | completes =>
    exact ⟨executionCompleted_closes.handles hrefers howns (by decide),
      .inr (.inl (announced_publish (congrArg (fun e : JobExecution => e.jobState.isTerminal)
        (finalize_fields _ _ _ _).2.1)))⟩
  | concludes hl => exact conclude_accounts hrefers howns hl

end Proceed

end JobSupervisor

namespace Lifecycle

variable {s s' : State} {a : Attempt} {action : Action}

def Action.mayStop (s : State) (action : Action) (requestID : String) : Prop :=
  match action with
  | .cancel _ req _ => requestID = req.id
  | .restart _ id .. => requestID = id
  | .requeueOrphans staleInterval now =>
    ∃ req ∈ s.db.requests, req.id = requestID ∧ req.updatedAt < now - staleInterval
  | .revertRequest _ => ∃ a, s.current = some a ∧ requestID = a.request.id
  | _ => False

theorem step_stops (hiss : Queen.issuedBySupervisor action = false)
    (h : step s action = some s') : Stops s.db (action.mayStop s) s'.db := by
  obtain ⟨req, -, -, -, hins⟩ | hrows := step_rows h
  · intro id hid
    obtain ⟨r, hr, hkey, hstate⟩ := runnable_iff.mp hid
    exact .inl (runnable_iff.mpr ⟨r, (mem_insert? hins).mpr (.inr hr), hkey, hstate⟩)
  refine stops_of_evolves hrows ?_
  intro r hr r' hwrite hrun
  cases hwrite with
  | same | postpone => exact .inl hrun
  | marks => exact .inl rfl
  | moves hmoves _ _ hold =>
    rw [hmoves.source] at hrun
    rcases hold with hold | ⟨req, rfl⟩
    · cases hiss.symm.trans hold
    · rcases revertState_cases req with hstate | hstate | hstate <;>
        rw [hstate] at hrun <;> cases hrun
  | reverts ha hid => exact .inr ⟨_, ha, hid⟩
  | cancel hsel => exact .inr (cancellable_id hsel)
  | approve hwaits | reject hwaits =>
    rw [waitingRequest_state hwaits] at hrun
    cases hrun
  | restart hid => exact .inr hid
  | requeue hstale => exact .inr ⟨r, hr, rfl, hstale⟩

def Phase.unmarked : Phase → Bool
  | .selected | .found _ | .saved _ => true
  | _ => false

/-- The next step of the attempt is refused. -/
def Attempt.Fails (a : Attempt) (db : Database) : Prop :=
  match a.phase with
  | .selected => a.request.jobState ≠ pending ∧ a.request.jobState ≠ paused
  | .found old => ∃ e ∈ old, e.jobState.isTerminal = false ∧
      ∀ row ∈ db.executions.rows, row.id = e.id → row.jobState ∈ terminalStates
  | .saved e => a.request.id = "" ∨ e.id = "" ∨ db.executions.find? e.id = none ∨
      ∀ r ∈ db.requests.rows, r.id = a.request.id → r.jobState ≠ pending ∧ r.jobState ≠ paused
  | _ => False

instance (a : Attempt) (db : Database) : Decidable (a.Fails db) := by
  unfold Attempt.Fails
  split <;> infer_instance

def Action.givesUp : Action → Bool
  | .drop | .postpone .. | .scheduleFailed => true
  | _ => false

def Action.createsExecution : Action → Bool
  | .lookup _ | .saveExecution _ | .markReady _ => true
  | _ => false

theorem step_unmarked (hgives : action.givesUp = false) (ha : s.current = some a)
    (hphase : a.phase.unmarked = true) (h : step s action = some s') :
    (∃ phase : Phase, s'.current = some { a with phase := phase } ∧
      (phase.unmarked = true ∨ action.createsExecution = true ∧ a.Fails s.db)) ∨
        s'.db.runnable a.request.id = true := by
  cases steps_of_step h with
  | submit | restart | quiet => exact .inl ⟨a.phase, ha, .inl hphase⟩
  | nextSchedulable hcur | pick _ hcur => cases ha.symm.trans hcur
  | schedules hb hsched =>
  cases hb.symm.trans ha
  cases hsched with
  | drop | postpone | gaveUp => cases hgives
  | lookup | create | reset => exact .inl ⟨_, rfl, .inl rfl⟩
  | moved hsel hmoved =>
    exact .inl ⟨_, rfl, .inr ⟨rfl, by rwa [Attempt.Fails, hsel, ← not_or]⟩⟩
  | notReset hfound hlive herr =>
    obtain ⟨he, hlive⟩ := filter_eq_some_iff.mp hlive
    refine .inl ⟨_, rfl, .inr ⟨rfl, ?_⟩⟩
    rw [Attempt.Fails, hfound]
    exact ⟨_, he, by simpa using hlive, resetStateToReady_error herr⟩
  | markReady _ hmark => exact .inr (setReadyToExecute_runnable hmark)
  | notMarked hsaved herr =>
    refine .inl ⟨_, rfl, .inr ⟨rfl, ?_⟩⟩
    rw [Attempt.Fails, hsaved]
    exact setReadyToExecute_error herr
  | failExecution hlater | notFailed hlater | failRequest hlater | sent hlater | notSent hlater
  | revertRequest hlater | deleteExecution hlater =>
    rw [hlater] at hphase
    cases hphase

end Lifecycle

namespace JobLauncher

variable (db : Database) {jobExecutionID : String} {validateError : Option String}
  {tasks reservations : List String} (now : Time)

theorem loadLast_tables (id : Option String) : (loadLast db id now).2.requests = db.requests ∧
      (loadLast db id now).2.executions = db.executions := by
  unfold loadLast
  split
  · exact ⟨rfl, rfl⟩
  split
  · next hget => exact ⟨(get_tables hget).1, (get_tables hget).2.1⟩
  · exact ⟨rfl, rfl⟩

variable {db now}

theorem launchJob_spec {requestID : String} {result : Except LaunchError JobLaunch} {db' : Database}
    (h : launchJob db requestID jobExecutionID validateError tasks reservations now =
      (result, db')) :
    db'.requests = db.requests ∧ db'.executions = db.executions ∧
      ∀ launch, result = .ok launch → launch.request.id = requestID ∧
        launch.execution.execution.id = jobExecutionID := by
  have hfails : ∀ {failure : LaunchError} (launch : JobLaunch), .error failure = Except.ok launch →
      launch.request.id = requestID ∧ launch.execution.execution.id = jobExecutionID := by
    intro failure launch h
    cases h
  unfold launchJob at h
  split at h
  · cases h
    exact ⟨rfl, rfl, hfails⟩
  next request hrequest =>
  unfold prepareLaunch at h
  iterate 5
    split at h
    · cases h
      exact ⟨rfl, rfl, hfails⟩
  next loaded db₁ hget =>
  obtain ⟨hreq, hexec, hfind⟩ := get_tables hget
  split at h
  · cases h
    exact ⟨hreq, hexec, hfails⟩
  dsimp only at h
  obtain ⟨hreq', hexec'⟩ := loadLast_tables db₁ now request.lastJobExecutionID
  split at h <;> cases h <;> refine ⟨hreq'.trans hreq, hexec'.trans hexec, ?_⟩
  · exact hfails
  rintro launch h
  cases h
  exact ⟨get_id hrequest, (find?_eq_some_iff.mp hfind).2⟩

theorem unloaded_of_failed {requestID message : String} {db' : Database}
    (h : launchJob db requestID jobExecutionID validateError tasks reservations now =
      (.error (.failed message), db'))
    (hnone : loadedExecution db jobExecutionID validateError tasks reservations now = none) :
    validateError.isSome ∨ jobExecutionID = "" ∨ reservations.length ≠ tasks.length ∨
      (∀ taskType ∈ tasks, taskType ∈ reservations) ∧
        ∀ e ∈ db.executions.find? jobExecutionID, e.active = false := by
  unfold launchJob prepareLaunch at h
  split at h
  · cases h
  split at h
  · exact .inl rfl
  split at h
  · exact .inr (.inl ‹_›)
  next hid =>
  split at h
  · exact .inr (.inr (.inl ‹_›))
  next hlen =>
  split at h
  · cases h
  next hfind =>
  have hall : ∀ taskType ∈ tasks, taskType ∈ reservations := by simpa using hfind
  refine .inr (.inr (.inr ⟨hall, fun e he => Bool.eq_false_of_not_eq_true fun hactive => ?_⟩))
  simp_all [loadedExecution, JobExecutionRepository.get]

theorem loadedExecution_id {loaded : JobExecutionRepository.LoadedExecution}
    (h : loadedExecution db jobExecutionID validateError tasks reservations now = some loaded) :
    loaded.execution.id = jobExecutionID := by
  unfold loadedExecution at h
  split at h
  · cases h
  split at h <;> cases h
  next hget =>
  exact (find?_eq_some_iff.mp (get_tables hget).2.2).2

end JobLauncher

end Formicary

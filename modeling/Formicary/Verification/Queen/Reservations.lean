import Formicary.Verification.Queen.LateEvents
import Formicary.Verification.Queen.Rows
import Formicary.Verification.Resource.Holdings

/-! # Reservations of jobs that do not run

The scheduler reserves ants for a request before it marks it READY, and three mechanisms free them:
the state machine of the job, the event that announces the end of a run, and the events of completed
tasks. -/

namespace Formicary

open JobSupervisor Resource Resource.State Option List

def Location.isApproval : Location → Bool
  | .approval _ => true
  | _ => false

namespace Queen

open RequestState Lifecycle

section Holding

variable (q : Queen)

def holdsAny (requestID : String) : Bool :=
  q.resources.state.holdsAny requestID

def releaseSent (requestID : String) : Bool :=
  q.toResources.any fun event => event.jobRequestID == requestID && event.jobState.isTerminal

def scheduling (requestID : String) : Bool :=
  q.reserved.isSome &&
    q.lifecycle.current.any fun a => a.request.id == requestID && a.phase.unmarked

/-- The request has a use for its ants, or is about to lose them. -/
def Covered (requestID : String) : Prop :=
  q.db.runnable requestID = true ∨ q.releaseSent requestID = true ∨ q.scheduling requestID = true

/-- No scheduling is in progress, and every event has been delivered. -/
@[mk_iff] structure Settled : Prop where
  scheduler : q.lifecycle.current = none
  resources : q.toResources = []
  launcher : q.toLauncher = []
  supervisors : q.toSupervisors = []
  tasks : q.taskEvents = []

instance : Decidable q.Settled :=
  decidable_of_iff' _ (settled_iff q)

/-- If the request is stopped, ants that it holds will be freed. -/
def Spares (requestID : String) : Prop :=
  q.db.runnable requestID = true → q.holdsAny requestID = true → q.releaseSent requestID = true

instance (requestID : String) : Decidable (q.Spares requestID) :=
  inferInstanceAs (Decidable (_ → _ → _))

def SparesAttempt : Prop :=
  ∀ a ∈ q.lifecycle.current, a.Fails q.db → q.holdsAny a.request.id = true →
    q.releaseSent a.request.id = true

instance : Decidable q.SparesAttempt :=
  inferInstanceAs (Decidable (∀ a ∈ _, _ → _ → _))

def SparesCancelled (i : ℕ) (event : JobExecutionLifecycleEvent) : Prop :=
  event.jobState.isTerminal = true → ∀ sup ∈ q.running[i]?, event.jobRequestID = sup.requestID →
    sup.supervisor.machine.execution.jobState.isTerminal = false → q.Spares sup.requestID

instance (i : ℕ) (event : JobExecutionLifecycleEvent) : Decidable (q.SparesCancelled i event) :=
  inferInstanceAs (Decidable (_ → ∀ sup ∈ _, _ → _ → _))

/-- The launch fails before the execution has been read. -/
def FailsUnloaded (definitions : String → Workflow) (event : JobExecutionLaunchEvent)
    (validateError : Option String) : Prop :=
  ∃ request ∈ q.db.requests.find? event.jobRequestID,
    let tasks := (tasksOf definitions request).map TaskDefinition.taskType
    let reservations := event.reservations.keys
    validateError.isSome ∨ event.jobExecutionID = "" ∨ reservations.length ≠ tasks.length ∨
      (∀ taskType ∈ tasks, taskType ∈ reservations) ∧
        ∀ e ∈ q.db.executions.find? event.jobExecutionID, e.active = false

instance (definitions : String → Workflow) (event : JobExecutionLaunchEvent)
    (validateError : Option String) : Decidable (q.FailsUnloaded definitions event validateError) :=
  inferInstanceAs (Decidable (∃ request ∈ _, _ ∨ _))

def MayHold (requestID : String) : Prop :=
  q.db.runnable requestID = true ∨ q.releaseSent requestID = true

instance (requestID : String) : Decidable (q.MayHold requestID) :=
  inferInstanceAs (Decidable (_ ∨ _))

def SparesReport : Resource.Action → Prop
  | .register registration _ => ∀ alloc ∈ registration.allocations, q.MayHold alloc.jobRequestID
  | _ => True

instance (action : Resource.Action) : Decidable (q.SparesReport action) := by
  rcases action <;> dsimp only [SparesReport] <;> infer_instance

variable (definitions : String → Workflow)

/-- The steps that leave no ants with a request that they stop, give none to one that cannot run,
and do not lose sight of an allocation. -/
def Tidy : Action → Prop
  -- none of these frees ants or announces anything
  | .act (.cancel _ req _) => q.Spares req.id
  | .act (.restart _ id _ _ _) => q.Spares id
  | .act (.requeueOrphans staleInterval now) =>
    ∀ req ∈ q.db.requests.rows, req.updatedAt < now - staleInterval → q.Spares req.id
  | .act action => action.createsExecution = true → q.SparesAttempt
  | .launch k validateError _ =>
    ∀ event ∈ q.launches[k]?, q.FailsUnloaded definitions event validateError →
      q.Spares event.jobRequestID
  | .proceed i _ =>
    ∀ sup ∈ q.running[i]?, sup.supervisor.location.isApproval = true → q.Spares sup.requestID
  | .validateAntAllocation i _ _ =>
    ∀ sup ∈ q.running[i]?, q.MayHold sup.requestID ∧
      ∀ allocation ∈ sup.taskType.bind sup.reservations.lookup, q.resources.state.Sole allocation
  | .deliverToLauncher k _ =>
    ∀ event ∈ q.toLauncher[k]?, ∀ i ∈ q.supervisors.lookup event.jobRequestID,
      event.jobState = cancelled → q.SparesCancelled i event
  | .deliverToSupervisor k _ =>
    ∀ target ∈ q.toSupervisors[k]?, q.SparesCancelled target.1 target.2
  | .deliverTaskEvent k now =>
    ∀ event ∈ q.taskEvents[k]?, event.taskState = completed →
      q.resources.state.Sole (newAntReservation event.antID "" event.jobRequestID
        event.taskType "" 0 0 now)
  | .resources action => Resource.Orderly q.resources action ∧ q.SparesReport action
  | _ => True

instance (action : Action) : Decidable (q.Tidy definitions action) := by
  unfold Tidy
  split <;> infer_instance

end Holding

structure Accounted (q : Queen) : Prop where
  owned : Owned q.lifecycle
  launches : ∀ event ∈ q.launches, Owns q.db event.jobRequestID event.jobExecutionID
  running : ∀ sup ∈ q.running, Owns q.db sup.requestID sup.executionID
  indexed : Resource.Indexed q.resources.state
  covered : ∀ requestID, q.holdsAny requestID = true → q.Covered requestID

section Accounted

variable {q : Queen} {requestID : String}

theorem releaseSent_iff : q.releaseSent requestID = true ↔
    ∃ event ∈ q.toResources, event.jobRequestID = requestID ∧ event.jobState.isTerminal = true := by
  simp [releaseSent]

variable {resources : Resource.Manager}

theorem releaseSent_send (h : q.releaseSent requestID = true)
    (events : List JobExecutionLifecycleEvent) : (q.send events).releaseSent requestID = true := by
  obtain ⟨event, hevent, hrest⟩ := releaseSent_iff.mp h
  exact releaseSent_iff.mpr ⟨event, mem_append_right _ hevent, hrest⟩

theorem updateReady_serves (db : Database) (id : String) {new : RequestState}
    (errorMessage errorCode : String) (delay : Time) (pausedCount : ℕ) (userKey : String)
    (now : Time) :
    Serves id db (commit db (JobRequestRepository.updateJobState db id (some ready) new
      errorMessage errorCode delay 0 pausedCount userKey now)) :=
  ⟨quiet_commit fun _ hok => quiet_of_updatesState (updateJobState_updates hok) (.inl (by decide)),
    stops_commit fun _ hok =>
      (stops_of_updatesState (updateJobState_updates hok)).mono fun _ hr => hr.1⟩

variable {q' : Queen} {definitions : String → Workflow} {cfg : Resource.Config}

def setLifecycle (q : Queen) (lifecycle : Lifecycle.State) : Queen :=
  { q with
    lifecycle := lifecycle
    reserved := if lifecycle.current.isNone then none else q.reserved }

variable {lifecycle : Lifecycle.State} {action : Lifecycle.Action} {r : String}

theorem covered_attempt (hcrs : action.createsExecution = true → q.SparesAttempt)
    (hmay : q.mayTake action = true) (hstep : Lifecycle.step q.lifecycle action = some lifecycle)
    (hsched : q.scheduling r = true) (hholds : q.holdsAny r = true) :
    (q.setLifecycle lifecycle).Covered r := by
  obtain ⟨hres, hatt⟩ := (Bool.and_eq_true _ _).mp hsched
  obtain ⟨a, ha, hatt⟩ := (any_eq_true _ _).mp hatt
  obtain ⟨hid, hphase⟩ := (Bool.and_eq_true _ _).mp hatt
  obtain rfl := beq_iff_eq.mp hid
  have hgives : action.givesUp = false := by
    have hnone : q.reserved.isNone = false := by
      rw [← not_isSome, hres]
      rfl
    cases action with
    | drop | postpone | scheduleFailed =>
      rw [show q.mayTake _ = q.reserved.isNone from rfl, hnone] at hmay
      cases hmay
    | _ => rfl
  rcases step_unmarked hgives ha hphase hstep with ⟨phase, hcur, hnext⟩ | hrun
  · rcases hnext with hunmarked | ⟨hcr, hfail⟩
    · exact .inr (.inr (by simp [scheduling, setLifecycle, hcur, hres, hunmarked]))
    · exact .inr (.inl (hcrs hcr a ha hfail hholds))
  · exact .inl hrun

theorem issuedBySupervisor_of_mayTake (h : q.mayTake action = true) :
    issuedBySupervisor action = false := by
  cases action with
  | setExecuting | requireApproval | finalize | updateRequest => cases h
  | _ => rfl

theorem Tidy.spares (htidy : q.Tidy definitions (.act action))
    (hrev : ∀ i, action ≠ .revertRequest i)
    (h : action.mayStop q.lifecycle r) : q.Spares r := by
  cases action with
  | cancel qc req =>
    obtain rfl : r = req.id := h
    exact htidy
  | restart qc id =>
    obtain rfl : r = id := h
    exact htidy
  | requeueOrphans =>
    obtain ⟨req, hmem, rfl, hstale⟩ := h
    exact htidy req hmem hstale
  | revertRequest i => exact absurd rfl (hrev i)
  | _ => exact h.elim

theorem Tidy.creates (htidy : q.Tidy definitions (.act action))
    (h : action.createsExecution = true) : q.SparesAttempt := by
  cases action with
  | lookup | saveExecution | markReady => exact htidy h
  | _ => cases h

variable {db : Database} (h : Accounted q)
include h

theorem Accounted.setResources (hind : Resource.Indexed resources.state)
    (hholds : ∀ a r, resources.state.holds a r = true →
      q.resources.state.holds a r = true ∨ q.MayHold r) :
    Accounted { q with resources := resources } where
  __ := h
  indexed := hind
  covered r hr := by
    obtain ⟨antID, hant⟩ := holdsAny_iff.mp hr
    rcases hholds antID r hant with hant' | hmay
    · exact h.covered r (holdsAny_iff.mpr ⟨antID, hant'⟩)
    · exact hmay.imp_right .inl

theorem Accounted.releaseJob (requestID : String) : Accounted (q.releaseJob requestID) :=
  h.setResources (indexed_releaseJob h.indexed requestID)
    fun _ _ hholds => .inl (holds_of_releaseJob hholds)

theorem Accounted.spares_releaseJob (requestID : String) :
    (q.releaseJob requestID).Spares requestID := by
  intro _ hholds
  cases hholds.symm.trans (not_holdsAny_releaseJob h.indexed requestID)

theorem Accounted.send (events : List JobExecutionLifecycleEvent) : Accounted (q.send events) where
  __ := h
  covered r hr := (h.covered r hr).imp_right fun hr => hr.imp_left (releaseSent_send · events)

theorem Accounted.setDb (hserve : Serves requestID q.db db)
    (hstops : Stops q.db (fun _ => False) db ∨ q.Spares requestID) : Accounted (q.setDb db) where
  owned := (h.owned.quiet hserve.quiet q.lifecycle.copies).owned
  launches event hevent := hserve.quiet.keepsOwners (h.launches event hevent)
  running sup hsup := hserve.quiet.keepsOwners (h.running sup hsup)
  indexed := h.indexed
  covered r hr := by
    rcases h.covered r hr with hrun | hdue
    · rcases hstops with hstops | hspare
      · exact .inl ((hstops r hrun).resolve_right id)
      · rcases hserve.stops r hrun with hrun' | rfl
        · exact .inl hrun'
        · exact .inr (.inl (hspare hrun hr))
    · exact .inr hdue

theorem Accounted.absorb {m : JobStateMachine} (hserve : Serves m.request.id q.db m.db)
    (hstops : Stops q.db (fun _ => False) m.db ∨ m.announced ∨ q.Spares m.request.id) :
    Accounted (q.absorb m) := by
  refine (h.send m.published).setDb hserve ?_
  rcases hstops with hstops | hann | hspare
  · exact .inl hstops
  · obtain ⟨state, hstate, hmem⟩ := hann
    have hevent : ⟨m.request.id, m.execution.id, state⟩ ∈ m.published :=
      mem_filterMap.mpr ⟨_, hmem, rfl⟩
    exact .inr fun _ _ => releaseSent_iff.mpr ⟨_, mem_append_left _ hevent, rfl, hstate⟩
  · exact .inr fun hrun hholds => releaseSent_send (hspare hrun hholds) _

variable {i : ℕ} {sup : Supervised}

theorem Accounted.put (sup' : Supervised)
    {s : JobSupervisor} (hi : q.running[i]? = some sup)
    (hhand : (sup.attach q.db).machine.Handles s.machine)
    (hstops : Stops q.db (fun _ => False) s.machine.db ∨ s.machine.announced ∨
      q.Spares sup.requestID) : Accounted (q.put i sup' s) := by
  have hserve : Serves s.machine.request.id q.db s.machine.db := by
    rw [hhand.request]
    exact hhand.rows
  have habs : Accounted (q.absorb s.machine) := by
    refine h.absorb hserve ?_
    rw [hhand.request]
    exact hstops
  refine { habs with running := ?_ }
  intro sup₁ hsup₁
  rcases mem_or_eq_of_mem_set hsup₁ with hmem | rfl
  · exact habs.running sup₁ hmem
  have howns := habs.running sup (mem_of_getElem? hi)
  unfold Supervised.requestID Supervised.executionID at howns ⊢
  rwa [hhand.request, hhand.execution]

theorem Accounted.owns (hi : q.running[i]? = some sup) : Owns q.db sup.requestID sup.executionID :=
  h.running sup (mem_of_getElem? hi)

variable {c : Clock}

theorem Accounted.proceed
    (htidy : ∀ sup ∈ q.running[i]?, sup.supervisor.location.isApproval = true →
      q.Spares sup.requestID) (hstep : q.proceed i c = some q') : Accounted q' := by
  obtain ⟨sup, hi, hstep⟩ := bind_eq_some_iff.mp hstep
  obtain ⟨s, hproceed, rfl⟩ := map_eq_some_iff.mp hstep
  obtain ⟨hhand, haccounts⟩ :=
    proceed_accounts (s := sup.attach q.db) h.owned.requests (h.owns hi) hproceed
  split
  · exact (h.releaseJob sup.requestID).put _ hi hhand
      (.inr (.inr (h.spares_releaseJob sup.requestID)))
  next hkept =>
  refine h.put _ hi hhand ?_
  rcases haccounts with hstops | hann | hrels | ⟨taskType, hloc⟩
  · exact .inl hstops
  · exact .inr (.inl hann)
  · exact absurd hrels hkept
  · refine .inr (.inr (htidy sup hi ?_))
    rw [show sup.supervisor.location = .approval taskType from hloc]
    rfl

theorem Accounted.taskDone {outcome : TaskOutcome}
    (hstep : q.taskDone i outcome c = some q') : Accounted q' := by
  obtain ⟨sup, hi, hstep⟩ := bind_eq_some_iff.mp hstep
  obtain ⟨s, hdone, rfl⟩ := map_eq_some_iff.mp hstep
  have hjob := step_taskDone_sameJob hdone
  have hput := h.put { sup with reservation := none } hi
    (JobStateMachine.handles_of_db (congrArg _ hjob.request) (congrArg _ hjob.execution) hjob.db)
    (.inl (stops_of_requests (congrArg _ hjob.db)))
  exact { hput with }

variable {event : JobExecutionLifecycleEvent}

theorem Accounted.updateFromJobLifecycleEvent (htidy : q.SparesCancelled i event) :
    Accounted (q.updateFromJobLifecycleEvent i event c) := by
  unfold Queen.updateFromJobLifecycleEvent
  split
  · exact h
  next sup hi =>
  split
  · next hmatch =>
    have hhand := (JobStateMachine.updateFromJobLifecycleEvent_closes (c := c)
      (m := (sup.attach q.db).machine) event.jobState).handles h.owned.requests (h.owns hi)
      (by decide)
    dsimp only
    split
    · exact (h.releaseJob sup.requestID).put _ hi hhand
        (.inr (.inr (h.spares_releaseJob sup.requestID)))
    next hkept =>
    refine h.put _ hi hhand ?_
    -- either the run is over already, or the event does not pause it
    unfold JobStateMachine.updateFromJobLifecycleEvent
    split
    · next hterm =>
      cases hended : (sup.attach q.db).machine.execution.jobState.isTerminal with
      | true =>
        refine .inl (stops_of_requests ?_)
        rw [JobStateMachine.executionCancelled_of_terminal _ c _ _ hended]
        rfl
      | false => exact .inr (.inr (htidy hterm sup hi hmatch.1 hended))
    split
    · next hpause =>
      have hidle : (sup.attach q.db).machine.execution.jobState ≠ executing := by
        intro hexec
        apply hkept
        rw [hpause, hexec]
        rfl
      refine .inl (stops_of_requests ?_)
      rw [JobStateMachine.pauseJob_of_not_executing _ c hidle]
      rfl
    · exact .inl (stops_of_requests rfl)
  · exact h

theorem Accounted.setDb_of_tables
    (hreqs : db.requests = q.db.requests) (hexecs : db.executions = q.db.executions) :
    Accounted (q.setDb db) := by
  have hquiet : Quiet q.db db := by
    refine quiet_of_requests hexecs ?_
    rw [hreqs]
    exact Table.Evolves.refl QuietRequest.refl _
  have hserve : Serves "" q.db db := ⟨hquiet, stops_of_requests hreqs⟩
  exact h.setDb hserve (.inl (stops_of_requests hreqs))

theorem Accounted.launchFailed {request : JobRequest}
    {execution : Option JobExecutionRepository.LoadedExecution} {err : String}
    (howns : ∀ loaded, execution = some loaded → Owns q.db request.id loaded.execution.id)
    (hspare : execution = none → q.Spares request.id) :
    Accounted (q.launchFailed request execution err c) := by
  unfold Queen.launchFailed
  split
  · next loaded =>
    have hhand := (JobStateMachine.launchFailed_closes (c := c)
      (m := machine q.db request loaded) err).handles h.owned.requests (howns loaded rfl)
      (by decide)
    refine h.absorb ?_ (.inr (.inl (JobStateMachine.launchFailed_announced _ _ _)))
    rw [hhand.request]
    exact hhand.rows
  · exact h.setDb (updateReady_serves _ _ _ _ _ _ _ _) (.inr (hspare rfl))

theorem Accounted.addSupervisor
    {launch : JobLauncher.JobLaunch} {reservations : FinMap String Resource.AntReservation}
    (howns : Owns q.db launch.request.id launch.execution.execution.id) :
    Accounted (q.addSupervisor definitions launch reservations) := by
  exact { h with running := forall_mem_append.mpr ⟨h.running, forall_mem_singleton.mpr howns⟩ }

theorem Accounted.launch {event : JobExecutionLaunchEvent} {validateError : Option String}
    (howns : Owns q.db event.jobRequestID event.jobExecutionID)
    (htidy : q.FailsUnloaded definitions event validateError → q.Spares event.jobRequestID) :
    Accounted (q.launch definitions event validateError c) := by
  unfold Queen.launch
  split
  · exact h
  next request hrequest =>
  have hid := get_id hrequest
  dsimp only
  cases hjob : JobLauncher.launchJob q.db event.jobRequestID event.jobExecutionID validateError
      ((tasksOf definitions request).map TaskDefinition.taskType) event.reservations.keys
      c.now with
  | mk result db' =>
    obtain ⟨hreqs, hexecs, hlaun⟩ := JobLauncher.launchJob_spec hjob
    have hload := h.setDb_of_tables hreqs hexecs
    have howns' := keepsOwners_of_executions hexecs howns
    match result with
    | .ok launch =>
      obtain ⟨hreq, hexec⟩ := hlaun launch rfl
      refine hload.addSupervisor ?_
      rw [hreq, hexec]
      exact howns'
    | .error (.unread message) => exact hload
    | .error (.requeue message) =>
      exact (hload.releaseJob request.id).setDb (updateReady_serves _ _ _ _ _ _ _ _)
        (.inr (hload.spares_releaseJob request.id))
    | .error (.failed message) =>
      refine hload.launchFailed ?_ ?_
      · intro loaded hsome
        rw [hid, JobLauncher.loadedExecution_id hsome]
        exact howns'
      · intro hnone
        have hspare := htidy ⟨request, (JobRequestRepository.request_of_get hrequest).2.1,
          JobLauncher.unloaded_of_failed hjob hnone⟩
        intro hrun hholds
        rw [hid] at hrun hholds ⊢
        refine hspare ?_ hholds
        unfold Database.runnable at hrun ⊢
        rwa [← hreqs]

theorem Accounted.setLifecycle (action : Lifecycle.Action) (hmay : q.mayTake action = true)
    (hstep : Lifecycle.step q.lifecycle action = some lifecycle)
    (hspare : ∀ r, action.mayStop q.lifecycle r → q.Spares r)
    (hcrs : action.createsExecution = true → q.SparesAttempt) :
    Accounted (q.setLifecycle lifecycle) := by
  obtain ⟨hkeeps, howned⟩ := owned_step h.owned hstep
  refine ⟨howned, fun event hevent => hkeeps (h.launches event hevent),
    fun sup hsup => hkeeps (h.running sup hsup), h.indexed, ?_⟩
  intro r hr
  rcases h.covered r hr with hrun | hsent | hsched
  · rcases step_stops (issuedBySupervisor_of_mayTake hmay) hstep r hrun with hrun' | hstop
    · exact .inl hrun'
    · exact .inr (.inl (hspare r hstop hrun hr))
  · exact .inr (.inl hsent)
  · exact covered_attempt hcrs hmay hstep hsched hr

theorem Accounted.act
    (htidy : q.Tidy definitions (.act action)) (hact : q.act action = some q') : Accounted q' := by
  unfold Queen.act at hact
  split at hact
  · next hmay =>
    obtain ⟨lifecycle, hstep, rfl⟩ := map_eq_some_iff.mp hact
    dsimp only
    split
    · next req e hcur =>
      -- the launch event carries the execution that was marked
      have hnext := h.setLifecycle _ hmay hstep (fun _ => htidy.spares (by simp)) htidy.creates
      refine { hnext with launches := forall_mem_cons.mpr ⟨?_, hnext.launches⟩ }
      exact (owned_step h.owned hstep).keeps (h.owned.phase _ hcur)
    · next req e i hcur =>
      refine (h.releaseJob req.id).setLifecycle (.revertRequest i) hmay hstep ?_ nofun
      rintro r ⟨a, ha, rfl⟩
      obtain rfl : ⟨req, .reverting e⟩ = a := some.inj (hcur.symm.trans ha)
      exact h.spares_releaseJob req.id
    · next hother =>
      refine h.setLifecycle _ hmay hstep (fun _ => htidy.spares ?_) htidy.creates
      rintro i rfl
      -- only an attempt in the phase of the second case is put back
      obtain ⟨a, ha, hback⟩ := bind_eq_some_iff.mp hstep
      simp only [scheduleStep] at hback
      split at hback
      · next e hphase => exact hother a.request e i (by rw [ha, ← hphase]) rfl
      · cases hback
  · cases hact

variable {now : Time}

theorem Accounted.reserve {choices : List ℕ}
    (hstep : q.reserve definitions cfg now choices = some q') : Accounted q' := by
  unfold Queen.reserve at hstep
  split at hstep
  · next req hcur hres =>
    obtain ⟨result, hresult, rfl⟩ := map_eq_some_iff.mp hstep
    obtain ⟨hind, hoth, hfail⟩ :=
      doReserveJobResources_reservedFor h.indexed hresult
    refine { h with indexed := hind, covered := ?_ }
    intro r hr
    by_cases hid : r = req.id
    · cases hresult₂ : result.2 with
      | error err =>
        have hnone := hfail err hresult₂
        rw [← hid] at hnone
        exact absurd (hr.symm.trans hnone) (by decide)
      | ok =>
        refine .inr (.inr ?_)
        simp [scheduling, Queen.setResources, hcur, hid, Phase.unmarked, Except.toOption]
    have hheld : q.holdsAny r = true := by
      obtain ⟨a, ha⟩ := holdsAny_iff.mp hr
      exact holdsAny_iff.mpr ⟨a, by rwa [← hoth a r hid]⟩
    rcases h.covered r hheld with hrun | hsent | hsched
    · exact .inl hrun
    · exact .inr (.inl hsent)
    -- nothing was reserved yet
    rw [scheduling, hres] at hsched
    cases hsched
  · cases hstep

theorem Accounted.validateAntAllocation {choice : ℕ}
    (htidy : q.Tidy definitions (.validateAntAllocation i now choice))
    (hstep : q.validateAntAllocation cfg i now choice = some q') : Accounted q' := by
  obtain ⟨sup, hi, hstep⟩ := bind_eq_some_iff.mp hstep
  obtain ⟨taskType, htask, hstep⟩ := bind_eq_some_iff.mp hstep
  obtain ⟨hmay, hsole⟩ := htidy sup hi
  split at hstep
  · next td allocation htd hallocation =>
    obtain ⟨result, hres, rfl⟩ := map_eq_some_iff.mp hstep
    obtain ⟨hind, hoth⟩ := validateAntAllocation_spec h.indexed
      (hsole allocation (by rw [htask]; exact hallocation)) hres
    have hnext : Accounted (q.setResources result.1) := by
      refine h.setResources hind fun a r hholds => ?_
      by_cases hid : r = sup.requestID
      · rw [hid]
        exact .inr hmay
      · exact .inl (hoth a r hid hholds)
    refine { hnext with running := ?_ }
    intro sup₁ hsup₁
    rcases mem_or_eq_of_mem_set hsup₁ with hmem | rfl
    · exact h.running sup₁ hmem
    · exact (show Owns q.db sup.requestID sup.executionID from h.owns hi)
  · cases hstep

theorem Accounted.receiveByResources {k : ℕ} (hk : q.toResources[k]? = some event) :
    Accounted ({ q with toResources := q.toResources.eraseIdx k }.receiveByResources event) := by
  -- what else was on its way still is
  have hsent : ∀ r, q.releaseSent r = true →
      event.jobRequestID = r ∧ event.jobState.isTerminal = true ∨
        { q with toResources := q.toResources.eraseIdx k }.releaseSent r = true := by
    intro r hr
    obtain ⟨event', hevent', hrest⟩ := releaseSent_iff.mp hr
    obtain ⟨j, hj⟩ := mem_iff_getElem?.mp hevent'
    by_cases hjk : j = k
    · rw [hjk, hk] at hj
      cases hj
      exact .inl hrest
    · exact .inr (releaseSent_iff.mpr ⟨event', mem_eraseIdx_iff_getElem?.mpr ⟨j, hjk, hj⟩, hrest⟩)
  unfold Queen.receiveByResources
  split
  · next hterm =>
    have hnext := h.releaseJob event.jobRequestID
    refine { hnext with covered := ?_ }
    intro r hr
    rcases hnext.covered r hr with hrun | hrel | hsched
    · exact .inl hrun
    · rcases hsent r hrel with ⟨rfl, -⟩ | hsent'
      · exact absurd (hr.symm.trans (not_holdsAny_releaseJob h.indexed _)) (by decide)
      · exact .inr (.inl hsent')
    · exact .inr (.inr hsched)
  · next hother =>
    refine { h with covered := ?_ }
    intro r hr
    refine (h.covered r hr).imp_right fun hdue => hdue.imp_left fun hrel => ?_
    exact (hsent r hrel).resolve_left fun hevent => hother hevent.2

theorem Accounted.receiveByLauncher (htidy : ∀ i ∈ q.supervisors.lookup event.jobRequestID,
      event.jobState = cancelled → q.SparesCancelled i event) :
    Accounted (q.receiveByLauncher event c) := by
  unfold Queen.receiveByLauncher
  split
  · next hterm =>
    unfold Queen.removeSupervisor
    dsimp only
    split
    · next i hi =>
      have hforg : Accounted { q with
          toSupervisors := (q.subscribers.map fun i => (i, event)) ++ q.toSupervisors
          supervisors := q.supervisors.erase event.jobRequestID } :=
        { h with }
      split
      · next hstate =>
        refine hforg.updateFromJobLifecycleEvent ?_
        rcases hstate with hstate | hstate
        · exact htidy i hi hstate
        rw [hstate] at hterm
        cases hterm
      · exact hforg
    · exact { h with }
  · exact { h with }

theorem Accounted.receiveTaskEvent {event : TaskExecutionLifecycleEvent}
    (htidy : event.taskState = completed → q.resources.state.Sole
      (newAntReservation event.antID "" event.jobRequestID event.taskType "" 0 0 now)) :
    Accounted (q.receiveTaskEvent event now) := by
  unfold Queen.receiveTaskEvent
  split
  · next hstate =>
    exact h.setResources ((indexed_release_iff h.indexed _).mpr (htidy hstate))
      fun _ _ hholds => .inl (holds_of_release hholds)
  · exact h

theorem Accounted.stepResources {action : Resource.Action} (hiss : issuedByQueen action = false)
    (horderly : Resource.Orderly q.resources action) (hreport : q.SparesReport action)
    (hstep : q.resources.step cfg action = some resources) :
    Accounted { q with resources := resources } := by
  refine h.setResources ((indexed_step_iff h.indexed hstep).mpr horderly) ?_
  intro a r hholds
  rcases Resource.Manager.holds_of_step hstep hholds with
    hold | ⟨call, now, choice, rfl⟩ | ⟨registration, now, rfl, alloc, halloc, rfl⟩
  · exact .inl hold
  · cases hiss
  · exact .inr (hreport alloc halloc)

omit h

theorem accounted_initial : Accounted initial where
  owned := owned_initial
  launches event hevent := by cases hevent
  running sup hsup := by cases hsup
  indexed a r hholds := by simp [initial, Resource.Manager.new, newState, holds] at hholds
  covered r hr := by
    obtain ⟨a, hholds⟩ := holdsAny_iff.mp hr
    simp [initial, Resource.Manager.new, newState, holds] at hholds

theorem Accounted.step (h : Accounted q) {action : Action} (htidy : q.Tidy definitions action)
    (hstep : q.step definitions cfg action = some q') : Accounted q' := by
  cases action with
  | act => exact h.act htidy hstep
  | reserve => exact h.reserve hstep
  | cancelJob | pauseJob =>
    simp only [Queen.step] at hstep
    split at hstep <;> cases hstep
    exact h.send _
  | launch k =>
    obtain ⟨event, hk, rfl⟩ := map_eq_some_iff.mp hstep
    refine Accounted.launch ?_ (h.launches event (mem_of_getElem? hk)) (htidy event hk)
    exact { h with launches := fun event hevent => h.launches event (mem_of_mem_eraseIdx hevent) }
  | proceed => exact h.proceed htidy hstep
  | taskDone => exact h.taskDone hstep
  | validateAntAllocation => exact h.validateAntAllocation htidy hstep
  | deliverToResources =>
    obtain ⟨event, hk, rfl⟩ := map_eq_some_iff.mp hstep
    exact h.receiveByResources hk
  | deliverToLauncher k =>
    obtain ⟨event, hk, rfl⟩ := map_eq_some_iff.mp hstep
    refine Accounted.receiveByLauncher ?_ (htidy event hk)
    exact { h with }
  | deliverToSupervisor k =>
    obtain ⟨⟨i, event⟩, hk, rfl⟩ := map_eq_some_iff.mp hstep
    refine Accounted.updateFromJobLifecycleEvent ?_ (htidy (i, event) hk)
    exact { h with }
  | deliverTaskEvent k =>
    obtain ⟨event, hk, rfl⟩ := map_eq_some_iff.mp hstep
    refine Accounted.receiveTaskEvent ?_ (htidy event hk)
    exact { h with }
  | resources =>
    simp only [Queen.step] at hstep
    split at hstep
    · cases hstep
    next hiss =>
    obtain ⟨resources, hres, rfl⟩ := map_eq_some_iff.mp hstep
    exact h.stepResources (Bool.eq_false_of_not_eq_true hiss) htidy.1 htidy.2 hres

end Accounted

/-- When the scheduler rests and every event has been delivered, only requests that are READY or
EXECUTING hold ants, provided that the steps so far were tidy. -/
theorem runnable_of_holdsAny (definitions : String → Workflow) (cfg : Resource.Config) {q : Queen}
    (h : (system definitions cfg).ReachableWith (fun q => q.Tidy definitions) q)
    (hsettled : q.Settled) (requestID : String) (hholds : q.holdsAny requestID = true) :
    q.db.runnable requestID = true := by
  have hacct : Accounted q :=
    h.invariant (fun _ hs => hs ▸ accounted_initial) fun _ _ _ hs => hs.step
  rcases hacct.covered requestID hholds with hrun | hsent | hsched
  · exact hrun
  · rw [releaseSent, hsettled.resources] at hsent
    cases hsent
  · rw [scheduling, hsettled.scheduler, any_none, Bool.and_false] at hsched
    cases hsched

def completeFirst : List Action :=
  [.resources (.register (shellAnt "a") 0), .act (.submit submitted)] ++
  scheduleAndLaunch "e1" ++ List.replicate 3 (.proceed 0 {}) ++
  [.taskDone 0 (replied completed) {}, .deliverToResources 0,
    .deliverToLauncher 0 {}, .deliverToSupervisor 0 {}, .deliverTaskEvent 0 0]

/-- The job still holds its ant, for the second task. -/
theorem runnable_after_first_task :
    ∃ q, compileAndTestSystem.Reachable q ∧ q.Settled ∧ q.holdsAny "r1" = true ∧
      q.db.runnable "r1" = true := by
  obtain ⟨q, hq, hset, hholds⟩ := TransitionSystem.exists_reachableWith
    (S := compileAndTestSystem) (fun q => q.Tidy fun _ => compileAndTest)
    (fun q => q.Settled ∧ q.holdsAny "r1" = true) completeFirst rfl (by decide)
  exact ⟨q, hq.mono fun _ _ _ => trivial, hset, hholds,
    runnable_of_holdsAny (fun _ => compileAndTest) ⟨60, 60⟩ hq hset "r1" hholds⟩

def approveAndDeploy : Workflow :=
  .ofDeclared (jobOf [{ shellTask "approve" "deploy" with
    method := .manual }, shellTask "deploy" ""]) (by decide)

def approveAndDeploySystem : TransitionSystem Queen Action :=
  system (fun _ => approveAndDeploy) ⟨60, 60⟩

def waitForApproval : List Action :=
  [.resources (.register (shellAnt "a") 0),
    .resources (.register { shellAnt "queen" with methods := [.manual] } 0),
    .act (.submit submitted)] ++
  scheduleAndLaunch "e1" ++ List.replicate 3 (.proceed 0 {}) ++
  [.taskDone 0 (replied completed) {}] ++ List.replicate 4 (.proceed 0 {}) ++
  [.deliverToResources 0, .deliverToLauncher 0 {}, .deliverTaskEvent 0 0]

def rejectApproval : List Action :=
  [.act (.read (QueryContext.newQueryContext none) "r1"),
    .act (.reject (QueryContext.newQueryContext none)
      { readyRequest with
        jobState := manualApprovalRequired, currentTask := "approve" } "approve" "" "u2" "" "k2" 0)]

/-- The ant for the deployment stays reserved while the job waits, and for good once it has been
rejected. -/
theorem held_while_waiting_for_approval : ∃ q q', approveAndDeploySystem.Reachable q ∧ q.Settled ∧
      (q.db.requests.find? "r1").map JobRequest.jobState = some manualApprovalRequired ∧
      q.resources.state.holds "a" "r1" = true ∧
      approveAndDeploySystem.runWith (fun _ _ => True) q rejectApproval = some q' ∧ q'.Settled ∧
      (q'.db.requests.find? "r1").map JobRequest.jobState = some failed ∧
      q'.resources.state.holds "a" "r1" = true := by
  obtain ⟨q, hq, hset, hstate, hholds, q', hq', hrej⟩ : ∃ q ∈ approveAndDeploySystem.runWith
      (fun _ _ => True) initial waitForApproval, q.Settled ∧
      (q.db.requests.find? "r1").map JobRequest.jobState = some manualApprovalRequired ∧
      q.resources.state.holds "a" "r1" = true ∧
      ∃ q' ∈ approveAndDeploySystem.runWith (fun _ _ => True) q rejectApproval, q'.Settled ∧
        (q'.db.requests.find? "r1").map JobRequest.jobState = some failed ∧
        q'.resources.state.holds "a" "r1" = true := by
    decide
  exact ⟨q, q', (TransitionSystem.ReachableWith.init rfl).runWith hq, hset, hstate, hholds,
    hq', hrej⟩

end Queen

end Formicary

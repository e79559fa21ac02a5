import Formicary.Verification.Execution.Results
import Formicary.Verification.Lifecycle.SingleExecution
import Formicary.Verification.Supervisor.Machine

/-! # Launches that fail

A request that is resumed goes through the scheduler again, and its launch may fail: the launch
event cannot be sent, or the launcher finds a task without a reservation. -/

namespace Formicary.Lifecycle

open RequestState JobExecutionRepository JobLauncher JobRequestRepository TransitionSystem Table
open List
open Option
open JobSupervisor (shellTask)

/-- The scheduler takes up the request and marks it READY. -/
def markActions (id freshID : String) (now : Time) : List Action :=
  [.nextSchedulable [id] now, .pick, .lookup now,
    .saveExecution { freshID := freshID, now := now }, .markReady now]

/-- A launch that fails and puts the request back. -/
inductive Round where
  /-- the scheduler cannot send the launch event -/
  | unsent (freshID : String) (i : Input)
  /-- the launcher finds no reservation for a task, before it has loaded the execution -/
  | requeued (freshID : String) (i : Input)
  deriving DecidableEq, Repr

def Round.isUnsent : Round → Bool
  | unsent .. => true
  | requeued .. => false

/-- Both ways end in `RevertRequestToPendingPaused`, for the launcher without an execution. -/
def Round.actions (id : String) : Round → List Action
  | unsent freshID i =>
    markActions id freshID i.now ++
      [.sendLaunchEvent false, .revertRequest i, .deleteExecution i.now]
  | requeued freshID i =>
    markActions id freshID i.now ++
      [.sendLaunchEvent true, .updateRequest id (.revertRequestToPendingPaused pending)
        { i with errorCode := "", retried := 0 }]

/-- The request refers to a live execution that can be continued. -/
structure Resumable (db : Database) (r : JobRequest) (e : JobExecution) : Prop where
  request : r ∈ db.requests
  reference : r.jobExecutionID = some e.id
  execution : e ∈ db.executions
  named : e.id ≠ ""
  active : e.active = true
  live : e.jobState.isTerminal = false
  owned : JobExecutionRepository.Owned db

section Marked

variable {s s' : State} {a : Attempt} {r : JobRequest} {e : JobExecution} {id freshID : String}
  {now : Time}

/-- What the scheduler has done when the request is READY and its launch event is due. -/
structure Marked (s s' : State) (r : JobRequest) (e : JobExecution) (now : Time) : Prop where
  waits : r.jobState = pending ∨ r.jobState = paused
  row : s'.db.requests.find? r.id =
    some { r with jobState := ready, jobExecutionID := some e.id, updatedAt := now }
  named : e.id ≠ ""
  live : ∃ e', s'.db.executions.find? e.id = some e' ∧ e'.active = true ∧
    e'.jobState.isTerminal = false
  results : ∀ id taskType, completedIn s'.db id taskType = completedIn s.db id taskType
  owned : JobExecutionRepository.Owned s'.db
  /-- the execution is the one the request has referred to, or a new one without results -/
  origin : r.jobExecutionID = some e.id ∨ ∀ taskType, completedIn s.db e.id taskType = false
  continues : ∀ e₀, Resumable s.db r e₀ → e.id = e₀.id

variable {db db' : Database} {old : Option JobExecution}

theorem lookupExecution_results
    (h : lookupExecution db r now = (old, db')) (ho : JobExecutionRepository.Owned db) :
    JobExecutionRepository.Owned db' ∧
      ∀ id taskType, completedIn db' id taskType = completedIn db id taskType := by
  unfold lookupExecution at h
  split at h
  · cases h
    exact ⟨ho, fun _ _ => rfl⟩
  split at h
  · next loaded db₁ hget =>
    cases h
    have hload := get_eq_ok.mp hget
    exact ⟨hload.owned ho, hload.completedIn_eq⟩
  · cases h
    exact ⟨ho, fun _ _ => rfl⟩

theorem lookupExecution_resumable
    (h : lookupExecution db r now = (old, db')) (hres : Resumable db r e) : old = some e := by
  unfold lookupExecution at h
  obtain ⟨⟨loaded, db₁⟩, hget⟩ := get_of_active hres.execution hres.named hres.active now
  rw [hres.reference] at h
  simp only [hget] at h
  cases h
  have hfind := (get_eq_ok.mp hget).execution
  rw [find?_eq_some_iff.mpr ⟨hres.execution, rfl⟩] at hfind
  exact hfind.symm

theorem lookupExecution_found (h : lookupExecution db r now = (some e, db')) :
    db.executions.find? e.id = some e ∧ e.active = true ∧ e.id ≠ "" ∧
      r.jobExecutionID = some e.id := by
  unfold lookupExecution at h
  split at h
  · cases h
  next id hid =>
  split at h <;> cases h
  next loaded db₁ hget =>
  have hload := get_eq_ok.mp hget
  have hkey := (find?_eq_some_iff.mp hload.execution).2
  subst hkey
  exact ⟨hload.execution, hload.active, hload.named, hid⟩

theorem picked {s₁ : State} (hrow : s.db.requests.find? id = some r)
    (h₁ : step s (.nextSchedulable [id] now) = some s₁) (h₂ : step s₁ .pick = some s') :
    s'.db = s.db ∧ s'.current = some ⟨r, .selected⟩ := by
  simp only [step] at h₁
  split at h₁ <;> cases h₁
  simp only [step] at h₂
  split at h₂ <;> cases h₂
  next req rest hbatch hcur =>
  have hmem : req ∈ s.db.requests.rows.filter fun req =>
      [id].contains req.id && schedulable now req := by
    rw [hbatch]
    exact mem_cons_self
  obtain ⟨hreq, hsel⟩ := mem_filter.mp hmem
  have hid : req.id = id := by
    have := ((Bool.and_eq_true _ _).mp hsel).1
    simpa using this
  obtain ⟨hr, hrid⟩ := find?_eq_some_iff.mp hrow
  rw [eq_of_key_eq hreq hr (hid.trans hrid.symm)]
  exact ⟨rfl, rfl⟩

theorem setReadyToExecute_row {execID : String} {last : Option String}
    (h : setReadyToExecute db id execID last now = .ok db')
    (hrow : db.requests.find? id = some r) :
    db'.requests.find? id = some { r with
          jobState := ready, jobExecutionID := some execID, lastJobExecutionID := last,
          updatedAt := now } ∧
      db'.executions = db.executions ∧ db'.tasks = db.tasks := by
  obtain ⟨-, -, hexecs, htasks, hreqs⟩ := setReadyToExecute_eq_ok h
  refine ⟨?_, hexecs, htasks⟩
  obtain ⟨hr, hid⟩ := find?_eq_some_iff.mp hrow
  obtain ⟨r', hr', hkey, ⟨hne, -⟩ | ⟨-, rfl⟩⟩ := hreqs.image hr
  · exact absurd hid hne
  · exact find?_eq_some_iff.mpr ⟨hr', hid⟩

section Rows

variable (hexecs : db'.executions = db.executions) (htasks : db'.tasks = db.tasks)
include hexecs htasks

theorem results_of_rows (id taskType : String) :
    completedIn db' id taskType = completedIn db id taskType := by
  refine completedIn_congr (by rw [hexecs]) ?_
  rw [activeTasks, activeTasks, htasks]

theorem owned_of_rows (ho : JobExecutionRepository.Owned db) :
    JobExecutionRepository.Owned db' := by
  unfold JobExecutionRepository.Owned
  rw [hexecs, htasks]
  exact ho

end Rows

theorem saved_results {i : Input}
    (hlook : lookupExecution s.db r now = (old, db)) (ho : JobExecutionRepository.Owned s.db)
    (hsaved : Schedules db ⟨r, .found old⟩ (.saveExecution i) db' (some (.saved e))) :
    db'.requests = s.db.requests ∧ e.id ≠ "" ∧ (∃ e', db'.executions.find? e.id = some e' ∧
        e'.active = true ∧ e'.jobState.isTerminal = false) ∧
      (∀ id taskType, completedIn db' id taskType = completedIn s.db id taskType) ∧
      JobExecutionRepository.Owned db' ∧
      (r.jobExecutionID = some e.id ∨ ∀ taskType, completedIn s.db e.id taskType = false) ∧
      ∀ e₀, Resumable s.db r e₀ → e.id = e₀.id := by
  obtain ⟨ho', hress⟩ := lookupExecution_results hlook ho
  obtain ⟨hreqs, hexecs, _, _⟩ := lookupExecution_spec hlook
  cases hsaved with
  | create hphase hnone hfresh hsave =>
    cases hphase
    have hsave' := save_completedIn hsave ho'
    obtain ⟨executions, hins, heq⟩ := save_eq_ok hsave
    refine ⟨by rw [heq, ← hreqs], hfresh, ?_,
      fun id taskType => (hsave' id taskType).trans (hress id taskType), save_owned hsave ho',
      .inr fun taskType => ?_, fun e₀ hres => ?_⟩
    · exact ⟨_, by rw [heq, find?_insert? hins, if_pos rfl], rfl, rfl⟩
    · rw [← hress, completedIn_eq, save_absent hsave]
      simp
    · rw [lookupExecution_resumable hlook hres] at hnone
      simp [hres.live] at hnone
  | reset hphase hfilter hreset =>
    cases hphase
    obtain ⟨rfl, hlive⟩ := filter_eq_some_iff.mp hfilter
    have hreset' := resetStateToReady_completedIn hreset
    obtain ⟨hfind, hact, hnamed, href⟩ := lookupExecution_found hlook
    have heq := (resetStateToReady_eq_ok hreset).2
    refine ⟨by rw [heq, ← hreqs], hnamed, ?_,
      fun id taskType => (hreset' id taskType).trans (hress id taskType),
      resetStateToReady_owned hreset ho', .inl href, fun e₀ hres => ?_⟩
    · rw [heq]
      refine ⟨_, find?_update_of_pos (hexecs ▸ hfind) ?_, hact, rfl⟩
      simpa [contains_iff_mem] using hlive
    · cases lookupExecution_resumable hlook hres
      rfl

theorem marked_of_run (hrow : s.db.requests.find? id = some r)
    (ho : JobExecutionRepository.Owned s.db)
    (hrun : system.runWith (fun _ _ => True) s (markActions id freshID now) = some s')
    (hcur : s'.current = some a) (hphase : a.phase = .marked e) :
    a.request = r ∧ Marked s s' r e now := by
  obtain ⟨-, s₁, h₁, hrun⟩ := runWith_cons_eq_some.mp hrun
  obtain ⟨-, s₂, h₂, hrun⟩ := runWith_cons_eq_some.mp hrun
  obtain ⟨-, s₃, h₃, hrun⟩ := runWith_cons_eq_some.mp hrun
  obtain ⟨-, s₄, h₄, hrun⟩ := runWith_cons_eq_some.mp hrun
  obtain ⟨-, s₅, h₅, hrun⟩ := runWith_cons_eq_some.mp hrun
  cases hrun
  obtain ⟨request, _⟩ := a
  cases hphase
  -- the attempt, back from the last phase to the first
  obtain ⟨_, hcur₄, hmark⟩ := schedules_of_step h₅ hcur
  obtain ⟨_, hcur₃, hsaved⟩ := schedules_of_step h₄ hcur₄
  obtain ⟨_, hcur₂, hfound⟩ := schedules_of_step h₃ hcur₃
  obtain ⟨hdb, hpicked⟩ := picked hrow h₁ h₂
  cases hcur₂.symm.trans hpicked
  cases s'
  cases s₃
  cases s₄
  cases hmark with | markReady hphase hmark =>
  cases hphase
  cases hfound with
  | moved => cases hsaved with
    | create hphase => cases hphase
    | reset hphase => cases hphase
  | lookup _ hlook hwaits =>
    rw [hdb] at hlook
    obtain ⟨hreqs, hnamed, hlive, hress, howned, horigin, hcont⟩ := saved_results hlook ho hsaved
    obtain rfl : r.id = id := (find?_eq_some_iff.mp hrow).2
    obtain ⟨hrow₅, hexecs, htasks⟩ := setReadyToExecute_row hmark (hreqs ▸ hrow)
    refine ⟨rfl, ?_⟩
    exact
      { waits := hwaits
        row := hrow₅
        named := hnamed
        live := by rw [hexecs]; exact hlive
        results := fun x taskType => (results_of_rows hexecs htasks x taskType).trans
          (hress x taskType)
        owned := owned_of_rows hexecs htasks howned
        origin := horigin
        continues := hcont }

end Marked

section Rounds

variable {s s' : State} {db db' db₀ : Database} {r r₀ : JobRequest} {e : JobExecution}
  {id execID : String} {lost : Bool}

theorem revert_ready {new : RequestState} (i : Input) (hrow : db.requests.find? id = some r)
    (hready : r.jobState = ready) (hnew : new = pending ∨ new = paused) :
    ∃ db' r', updateJobState db id (some ready) new i.errorMessage "" i.delay 0
        i.pausedCount i.userKey i.now = .ok db' ∧
      db'.requests.find? id = some r' ∧ r'.jobExecutionID = r.jobExecutionID ∧
      r'.lastJobExecutionID = r.lastJobExecutionID ∧ r'.hardRestart = r.hardRestart ∧
      r'.retried = r.retried ∧ db'.executions = db.executions ∧ db'.tasks = db.tasks := by
  obtain ⟨hr, hid⟩ := find?_eq_some_iff.mp hrow
  have hallow : ready.canTransitionTo new = true := by rcases hnew with rfl | rfl <;> rfl
  have hrun : new ≠ executing := by rcases hnew with rfl | rfl <;> decide
  have hsel : (r.id == id && r.jobState == ready) = true := by simp [hid, hready]
  unfold updateJobState
  simp only [hallow, Bool.not_true, Bool.false_eq_true, if_false]
  split
  · next requests hupd =>
    refine ⟨_, updateJobStateColumns new i.errorMessage "" i.delay 0
      i.pausedCount i.userKey i.now r, rfl, ?_, rfl, rfl, if_neg hrun, if_neg (by simp), rfl,
      rfl⟩
    rw [(updateOne?_eq_some_iff.mp hupd).2]
    exact find?_update_of_pos hrow hsel
  · next hnone =>
    have hone := not_selected_of_updateOne? (k := id)
      (fun r hr => by simpa using ((Bool.and_eq_true _ _).mp hr).1) hnone r hr
    simp [hid, hready] at hone

/-- Where a request that is put back stands. It keeps what decides about the reuse of results; once
a launch event was not sent, the results of its execution are lost. -/
structure PutBack (db₀ : Database) (r₀ : JobRequest) (execID : String) (lost : Bool) (db : Database)
    (r : JobRequest) : Prop where
  row : db.requests.find? r₀.id = some r
  last : r.lastJobExecutionID = r₀.lastJobExecutionID
  hardRestart : r.hardRestart = r₀.hardRestart
  retried : r.retried = r₀.retried
  owned : JobExecutionRepository.Owned db
  results : ∀ id taskType, completedIn db id taskType =
    (completedIn db₀ id taskType && !(lost && id == execID))
  kept : lost = false → ∃ e, e.id = execID ∧ Resumable db r e
  empty : lost = true → ∀ id, r.jobExecutionID = some id → ∀ taskType,
    completedIn db id taskType = false

theorem Resumable.putBack (h : Resumable db r e) : PutBack db r e.id false db r where
  row := find?_eq_some_iff.mpr ⟨h.request, rfl⟩
  last := rfl
  hardRestart := rfl
  retried := rfl
  owned := h.owned
  results := by simp
  kept := fun _ => ⟨e, rfl, h⟩
  empty := by simp

variable {now : Time}

theorem PutBack.marked_empty (h : PutBack db₀ r₀ execID true s.db r)
    (hm : Marked s s' r e now) (taskType : String) : completedIn s.db e.id taskType = false := by
  rcases hm.origin with href | hnew
  · exact h.empty rfl e.id href taskType
  · exact hnew taskType

theorem PutBack.marked_kept (h : PutBack db₀ r₀ execID false s.db r)
    (hm : Marked s s' r e now) : e.id = execID := by
  obtain ⟨e₀, rfl, hres⟩ := h.kept rfl
  exact hm.continues e₀ hres

theorem sendLaunchEvent_step {sent : Bool} (h : step s (.sendLaunchEvent sent) = some s') :
    ∃ a e, s.current = some a ∧ a.phase = .marked e ∧ s'.db = s.db ∧
      (sent = false → s'.current = some ⟨a.request, .reverting e⟩) := by
  obtain ⟨a, ha, h⟩ := bind_eq_some_iff.mp (show (s.current.bind _) = some s' from h)
  simp only [scheduleStep] at h
  split at h
  · next e hphase =>
    refine ⟨a, e, ha, hphase, ?_⟩
    cases sent <;> cases h
    · exact ⟨rfl, fun _ => rfl⟩
    · exact ⟨rfl, fun hsent => absurd hsent (by decide)⟩
  · cases h

theorem delete_of_active (hfind : db.executions.find? id = some e) (hid : id ≠ "")
    (hact : e.active = true) : ∃ db', delete db id now = .ok db' := by
  obtain ⟨he, hkey⟩ := find?_eq_some_iff.mp hfind
  subst hkey
  obtain ⟨⟨loaded, db₁⟩, hget⟩ := get_of_active he hid hact now
  have hexecs : db₁.executions = db.executions := by rw [(get_eq_ok.mp hget).tables]
  unfold delete
  rw [hget]
  simp only [bind, Except.bind]
  rw [hexecs, updateOne?_isSome_of_mem (k := e.id)
    (fun e' he' => by simpa using ((Bool.and_eq_true _ _).mp he').1) he (by simp [hact])]
  exact ⟨_, rfl⟩

variable {i : Input}

theorem revertRequest_step (hcur : s.current = some ⟨r, .reverting e⟩)
    (h : step s (.revertRequest i) = some s') :
    s'.db = commit s.db (updateJobState s.db r.id (some ready) (revertState r)
        i.errorMessage "" i.delay 0 i.pausedCount i.userKey i.now) ∧
      s'.current = some ⟨r, .deleting e⟩ := by
  simp only [step, hcur, bind_some, scheduleStep] at h
  cases h
  exact ⟨rfl, rfl⟩

theorem deleteExecution_step (hcur : s.current = some ⟨r, .deleting e⟩)
    (h : step s (.deleteExecution now) = some s') : s'.db = commit s.db (delete s.db e.id now) := by
  simp only [step, hcur, bind_some, scheduleStep] at h
  cases h
  rfl

theorem revertState_waits (h : r.jobState = pending ∨ r.jobState = paused) :
    revertState r = pending ∨ revertState r = paused := by
  rcases h with h | h <;> simp [revertState, h]

theorem PutBack.revert {new : RequestState} (h : PutBack db₀ r₀ execID lost s.db r)
    (hm : Marked s s' r e now) (hnew : new = pending ∨ new = paused) (i : Input) :
    ∃ db' r', updateJobState s'.db r₀.id (some ready) new i.errorMessage ""
        i.delay 0 i.pausedCount i.userKey i.now = .ok db' ∧
      PutBack db₀ r₀ execID lost db' r' ∧ r'.jobExecutionID = some e.id ∧
      ∃ e', db'.executions.find? e.id = some e' ∧ e'.active = true := by
  have hid : r.id = r₀.id := (find?_eq_some_iff.mp h.row).2
  obtain ⟨db', r', hupd, hrow, href, hlast, hhard, hretr, hexecs, htasks⟩ :=
    revert_ready i hm.row rfl hnew
  obtain ⟨e', hfind, hact, hlive⟩ := hm.live
  rw [← hexecs] at hfind
  rw [hid] at hupd hrow
  have howned := owned_of_rows hexecs htasks hm.owned
  have hress : ∀ id taskType, completedIn db' id taskType = completedIn s.db id taskType := by
    intro id taskType
    rw [results_of_rows hexecs htasks, hm.results]
  refine ⟨db', r', hupd, ?_, href, e', hfind, hact⟩
  exact
    { row := hrow
      last := hlast.trans h.last
      hardRestart := hhard.trans h.hardRestart
      retried := hretr.trans h.retried
      owned := howned
      results := by
        intro id taskType
        rw [hress, h.results]
      kept := by
        rintro rfl
        obtain ⟨he', hkey⟩ := find?_eq_some_iff.mp hfind
        refine ⟨e', hkey.trans (h.marked_kept hm), ?_⟩
        exact
          { request := (find?_eq_some_iff.mp hrow).1
            reference := by rw [href, hkey]
            execution := he'
            named := by rw [hkey]; exact hm.named
            active := hact
            live := hlive
            owned := howned }
      empty := by
        rintro rfl id hx taskType
        obtain rfl : e.id = id := some.inj (href.symm.trans hx)
        rw [hress]
        exact h.marked_empty hm taskType }

theorem PutBack.delete (h : PutBack db₀ r₀ execID lost db r) (href : r.jobExecutionID = some id)
    (hdel : delete db id now = .ok db') : PutBack db₀ r₀ execID true db' r where
  row := by rw [(delete_ok hdel).1, h.row]
  __ := h
  owned := delete_owned hdel h.owned
  results := by
    intro id' taskType
    rw [delete_completedIn hdel, h.results]
    cases lost with
    | false =>
      obtain ⟨e, rfl, hres⟩ := h.kept rfl
      obtain rfl : e.id = id := some.inj (hres.reference.symm.trans href)
      by_cases hx : id' = e.id <;> simp [hx]
    | true =>
      by_cases hx : id' = id
      · have hempty := h.empty rfl id href taskType
        rw [h.results] at hempty
        rw [hx, hempty]
        rfl
      · simp [hx]
  kept := by simp
  empty := by
    intro _ id' hx taskType
    obtain rfl : id = id' := some.inj (href.symm.trans hx)
    rw [delete_completedIn hdel]
    simp

section

variable (h : PutBack db₀ r₀ execID lost s.db r)
include h

theorem PutBack.unsent {freshID : String}
    (hrun : system.runWith (fun _ _ => True) s ((Round.unsent freshID i).actions r₀.id) = some s') :
    ∃ r', PutBack db₀ r₀ execID true s'.db r' := by
  obtain ⟨s₁, hmark, hrun⟩ := runWith_append_eq_some.mp hrun
  obtain ⟨-, s₂, h₂, hrun⟩ := runWith_cons_eq_some.mp hrun
  obtain ⟨-, s₃, h₃, hrun⟩ := runWith_cons_eq_some.mp hrun
  obtain ⟨-, s₄, h₄, hrun⟩ := runWith_cons_eq_some.mp hrun
  cases hrun
  obtain ⟨a, e, hcur, hphase, hdb₂, hcur₂⟩ := sendLaunchEvent_step h₂
  obtain ⟨hreq, hm⟩ := marked_of_run h.row h.owned hmark hcur hphase
  have hid : r.id = r₀.id := (find?_eq_some_iff.mp h.row).2
  obtain ⟨hdb₃, hcur₃⟩ := revertRequest_step (hreq ▸ hcur₂ rfl) h₃
  have hdb₄ := deleteExecution_step hcur₃ h₄
  -- both statements of the revert go through
  obtain ⟨db₃, r', hupd, hback, href, e', hfind, hact⟩ :=
    h.revert hm (revertState_waits hm.waits) i
  obtain ⟨db₄, hdel⟩ := delete_of_active hfind hm.named hact
  rw [hdb₂, hid, hupd] at hdb₃
  rw [hdb₃, show commit s₁.db (.ok db₃) = db₃ from rfl, hdel] at hdb₄
  exact ⟨r', hdb₄ ▸ hback.delete href hdel⟩

theorem PutBack.requeued {freshID : String}
    (hrun : system.runWith (fun _ _ => True) s ((Round.requeued freshID i).actions r₀.id) =
      some s') :
    ∃ r', PutBack db₀ r₀ execID lost s'.db r' := by
  obtain ⟨s₁, hmark, hrun⟩ := runWith_append_eq_some.mp hrun
  obtain ⟨-, s₂, h₂, hrun⟩ := runWith_cons_eq_some.mp hrun
  obtain ⟨-, s₃, h₃, hrun⟩ := runWith_cons_eq_some.mp hrun
  cases hrun
  cases h₃
  obtain ⟨a, e, hcur, hphase, hdb₂, -⟩ := sendLaunchEvent_step h₂
  obtain ⟨hreq, hm⟩ := marked_of_run h.row h.owned hmark hcur hphase
  obtain ⟨db₃, r', hupd, hback, -⟩ := h.revert hm (.inl rfl) i
  refine ⟨r', ?_⟩
  show PutBack _ _ _ _ (commit s₂.db (updateJobState s₂.db r₀.id (some ready)
    pending i.errorMessage "" i.delay 0 i.pausedCount i.userKey i.now)) _
  rw [hdb₂, hupd]
  exact hback

theorem PutBack.rounds {rounds : List Round}
    (hrun : system.runWith (fun _ _ => True) s (rounds.flatMap (Round.actions r₀.id)) = some s') :
    ∃ r', PutBack db₀ r₀ execID (lost || rounds.any Round.isUnsent) s'.db r' := by
  induction rounds generalizing s lost r with
  | nil =>
    cases hrun
    exact ⟨r, by simpa using h⟩
  | cons round rounds ih =>
    obtain ⟨s₁, hround, hrest⟩ := runWith_append_eq_some.mp hrun
    cases round with
    | unsent =>
      obtain ⟨r₁, h₁⟩ := h.unsent hround
      obtain ⟨r', h'⟩ := ih h₁ hrest
      exact ⟨r', by simpa [Round.isUnsent] using h'⟩
    | requeued =>
      obtain ⟨r₁, h₁⟩ := h.requeued hround
      obtain ⟨r', h'⟩ := ih h₁ hrest
      exact ⟨r', by simpa [Round.isUnsent] using h'⟩

end

end Rounds

section Launch

variable {db db' : Database} {request r : JobRequest} {e : JobExecution} {launch : JobLaunch}
  {tasks reservations : List String} {execID taskType : String} {now : Time}

theorem prepareLaunch_eq_ok
    (h : prepareLaunch db request execID none tasks reservations now = (.ok launch, db')) :
    launch.request = request ∧ request.jobExecutionID = some execID ∧
      ∃ db₁, Loads db execID now launch.execution db₁ ∧
        loadLast db₁ request.lastJobExecutionID now = (launch.lastExecution, db') := by
  simp only [prepareLaunch] at h
  split at h
  · cases h
  split at h
  · cases h
  split at h
  · cases h
  split at h
  · cases h
  next loaded db₁ hget =>
  split at h
  · cases h
  next href =>
  split at h <;> cases h
  exact ⟨rfl, by simpa using href, db₁, get_eq_ok.mp hget, rfl⟩

theorem loadLast_completed {last : Option String} {loaded : Option LoadedExecution}
    (h : loadLast db last now = (loaded, db')) :
    ((loaded.bind fun l => l.getTask taskType).any fun t => t.taskState == completed) =
      last.any fun id => completedIn db id taskType := by
  unfold loadLast at h
  split at h
  · cases h
    rfl
  next id =>
  split at h
  · next l db₁ hget =>
    cases h
    exact (get_eq_ok.mp hget).completedIn_iff_getTask
  next err hget =>
  cases h
  have hnone : completedIn db id taskType = false := by
    cases hc : completedIn db id taskType with
    | false => rfl
    | true =>
      obtain ⟨hid, hact, _⟩ := completedIn_iff.mp hc
      obtain ⟨e, hfind, he⟩ := (any_eq_true _ _).mp hact
      obtain ⟨hmem, rfl⟩ := find?_eq_some_iff.mp hfind
      obtain ⟨p, hp⟩ := get_of_active hmem hid he now
      rw [hp] at hget
      cases hget
  simp [hnone]

theorem launchJob_eq_ok {id : String} (hrow : db.requests.find? id = some r)
    (h : launchJob db id execID none tasks reservations now = (.ok launch, db')) :
    launch.request = r ∧ r.jobExecutionID = some execID ∧
      (∀ taskType, ((launch.execution.getTask taskType).any fun t => t.taskState == completed) =
        completedIn db execID taskType) ∧
      ∀ taskType, ((launch.lastExecution.bind fun l => l.getTask taskType).any fun t =>
        t.taskState == completed) =
          r.lastJobExecutionID.any fun id => completedIn db id taskType := by
  unfold launchJob at h
  split at h
  · cases h
  next request hget =>
  obtain rfl : r = request := some.inj (hrow.symm.trans (request_of_get hget).2.1)
  obtain ⟨hlreq, href, db₁, hload, hlast⟩ := prepareLaunch_eq_ok h
  refine ⟨hlreq, href, fun taskType => hload.completedIn_iff_getTask, fun taskType => ?_⟩
  rw [loadLast_completed hlast]
  simp only [hload.completedIn_eq]

theorem sendsToAnt_eq {s₀ s : State} {db₀ : Database} {r₀ : JobRequest} {e : JobExecution}
    {lost : Bool} {id : String} {markedAt : Time} {hardResetAfterRetries : ℤ} {td : TaskDefinition}
    (h : PutBack db₀ r₀ id lost s₀.db r) (hm : Marked s₀ s r e markedAt)
    (hlaun : launchJob s.db r.id execID none tasks reservations now = (.ok launch, db'))
    (hfull : doesRequireFullRestart hardResetAfterRetries r₀ = false)
    (hdone : completedIn db₀ id td.taskType = true) :
    launch.sendsToAnt hardResetAfterRetries td = (lost && !td.isExcept && td.method != .manual &&
        !(r₀.lastJobExecutionID.any fun last =>
          completedIn db₀ last td.taskType && last != id)) := by
  obtain ⟨hreq, href, hcur, hlast⟩ := launchJob_eq_ok hm.row hlaun
  have hexec : e.id = execID := some.inj href
  have hreuse : doesRequireFullRestart hardResetAfterRetries launch.request = false := by
    rw [hreq]
    unfold doesRequireFullRestart at hfull ⊢
    simp only
    rw [h.hardRestart, h.retried]
    exact hfull
  rw [JobLaunch.sendsToAnt, canReusePreviousResult, hcur, hlast, hreuse, ← hexec, hm.results]
  simp only [hm.results, h.last]
  cases lost with
  | false =>
    rw [h.marked_kept hm, h.results, hdone]
    rfl
  | true =>
    rw [h.marked_empty hm]
    simp only [h.results, Bool.not_false, Bool.true_and, bne]

/-- However often the launch of a resumed job fails, its completed tasks are not sent to an ant
again if and only if every launch event was sent, or all their results are also those of the
request's last execution. -/
theorem not_sent_again_iff {s s' : State} (h : Resumable s.db r e) (rounds : List Round)
    {freshID : String} {markedAt : Time}
    (hrun : system.runWith (fun _ _ => True) s (rounds.flatMap (Round.actions r.id) ++
      (markActions r.id freshID markedAt ++ [.sendLaunchEvent true])) = some s')
    (hlaunch : launchJob s'.db r.id execID none tasks reservations now = (.ok launch, db'))
    {hardResetAfterRetries : ℤ} (hfull : doesRequireFullRestart hardResetAfterRetries r = false) :
    (∀ td : TaskDefinition, completedIn s.db e.id td.taskType = true →
        launch.sendsToAnt hardResetAfterRetries td = false) ↔
      (∀ round ∈ rounds, round.isUnsent = false) ∨
        ∀ taskType, completedIn s.db e.id taskType = true →
          ∃ last, r.lastJobExecutionID = some last ∧ last ≠ e.id ∧
            completedIn s.db last taskType = true := by
  obtain ⟨s₁, hrounds, hrun⟩ := runWith_append_eq_some.mp hrun
  obtain ⟨s₂, hmark, hrun⟩ := runWith_append_eq_some.mp hrun
  obtain ⟨-, s₃, h₃, hrun⟩ := runWith_cons_eq_some.mp hrun
  cases hrun
  obtain ⟨r', hback⟩ := h.putBack.rounds hrounds
  obtain ⟨a, e', hcur, hphase, hdb, -⟩ := sendLaunchEvent_step h₃
  obtain ⟨-, hm⟩ := marked_of_run hback.row hback.owned hmark hcur hphase
  rw [hdb, ← (find?_eq_some_iff.mp hback.row).2] at hlaunch
  have hsends : ∀ td : TaskDefinition, completedIn s.db e.id td.taskType = true →
      launch.sendsToAnt hardResetAfterRetries td =
        (rounds.any Round.isUnsent && !td.isExcept && td.method != .manual &&
          !(r.lastJobExecutionID.any fun last =>
            completedIn s.db last td.taskType && last != e.id)) := by
    intro td hdone
    simpa using sendsToAnt_eq hback hm hlaunch hfull hdone
  by_cases hlost : rounds.any Round.isUnsent = true
  · have hunsent : ¬ ∀ round ∈ rounds, round.isUnsent = false := by
      obtain ⟨round, hmem, hround⟩ := any_eq_true.mp hlost
      intro hall
      rw [hall round hmem] at hround
      cases hround
    simp only [hunsent, false_or]
    constructor
    · intro hall taskType hdone
      have hnot := hall (shellTask taskType "") hdone
      rw [hsends _ hdone, hlost] at hnot
      have hlast : (r.lastJobExecutionID.any fun last =>
          completedIn s.db last taskType && last != e.id) = true := by
        simpa [shellTask, TaskDefinition.isExcept, show Text.contains "" "true" = false by decide]
          using hnot
      obtain ⟨last, hid, hlast⟩ := (any_eq_true _ _).mp hlast
      obtain ⟨hlast, hne⟩ := (Bool.and_eq_true _ _).mp hlast
      exact ⟨last, hid, by simpa using hne, hlast⟩
    · intro hall td hdone
      obtain ⟨last, hid, hne, hlast⟩ := hall td.taskType hdone
      rw [hsends td hdone, hid]
      simp [hlast, hne]
  · have hsent : ∀ round ∈ rounds, round.isUnsent = false := by
      intro round hmem
      by_contra hround
      exact hlost (any_eq_true.mpr ⟨round, hmem, by simpa using hround⟩)
    have hlost' : rounds.any Round.isUnsent = false := Bool.eq_false_iff.mpr hlost
    refine iff_of_true (fun td hdone => ?_) (.inl hsent)
    rw [hsends td hdone, hlost']
    rfl

end Launch

def pausedRequest : JobRequest :=
  { submitted "r1" with jobState := paused, jobExecutionID := some "e1" }

def pausedExecution : JobExecution :=
  { newJobExecution (submitted "r1") "e1" 0 with jobState := paused }

def completedTask : TaskExecution where
  id := "t1"
  jobExecutionID := "e1"
  taskType := "build"
  taskState := completed
  exitCode := "0"
  taskOrder := 1
  endedAt := some 0
  updatedAt := 0
  active := true

def pausedState : State where
  db := { Database.empty with
    requests := ⟨[pausedRequest], by decide⟩
    executions := ⟨[pausedExecution], by decide⟩
    tasks := ⟨[completedTask], by decide⟩ }
  batch := []
  current := none
  copies := []

theorem pausedState_resumable : Resumable pausedState.db pausedRequest pausedExecution where
  request := mem_singleton.mpr rfl
  reference := rfl
  execution := mem_singleton.mpr rfl
  named := by decide
  active := rfl
  live := rfl
  owned := by
    intro t ht
    obtain rfl := mem_singleton.mp ht
    exact ⟨pausedExecution, mem_singleton.mpr rfl, rfl⟩

theorem exists_launch {r : Option State} {f : State → Except LaunchError JobLaunch × Database}
    {p : JobLaunch → Prop} (h : ∃ s' ∈ r, ∃ launch ∈ (f s').1.toOption, p launch) :
    ∃ s' launch db', r = some s' ∧ f s' = (.ok launch, db') ∧ p launch := by
  obtain ⟨s', hrun, launch, hlaun, hp⟩ := h
  cases hres : f s' with
  | mk result db' =>
    rw [hres] at hlaun
    cases result with
    | error => cases hlaun
    | ok =>
      cases hlaun
      exact ⟨s', launch, db', hrun, hres, hp⟩

/-- A reservation is missing at the first launch. -/
theorem kept_after_requeue : ∃ s' launch db', system.runWith (fun _ _ => True) pausedState
        ([Round.requeued "" {}].flatMap (Round.actions pausedRequest.id) ++
          (markActions pausedRequest.id "" 0 ++ [.sendLaunchEvent true])) = some s' ∧
      launchJob s'.db pausedRequest.id "e1" none ["build"] ["build"] 0 = (.ok launch, db') ∧
      ∀ td : TaskDefinition, completedIn pausedState.db pausedExecution.id td.taskType = true →
        launch.sendsToAnt 0 td = false := by
  obtain ⟨s', launch, db', hrun, hlaun, -⟩ := exists_launch
    (r := system.runWith (fun _ _ => True) pausedState
      ([Round.requeued "" {}].flatMap (Round.actions pausedRequest.id) ++
        (markActions pausedRequest.id "" 0 ++ [.sendLaunchEvent true])))
    (f := fun s' => launchJob s'.db pausedRequest.id "e1" none ["build"] ["build"] 0)
    (p := fun _ => True) (by decide)
  exact ⟨s', launch, db', hrun, hlaun,
    (not_sent_again_iff pausedState_resumable [.requeued "" {}] hrun hlaun (by decide)).mpr
      (.inl (by decide))⟩

/-- The first launch event is not sent. The job starts over under a new execution, and its completed
task is sent to an ant again. -/
theorem sent_again_after_unsent : completedIn pausedState.db pausedExecution.id "build" = true ∧
      doesRequireFullRestart 0 pausedRequest = false ∧
      ∃ s' launch db', system.runWith (fun _ _ => True) pausedState
          ([Round.unsent "" {}].flatMap (Round.actions pausedRequest.id) ++
            (markActions pausedRequest.id "e2" 0 ++ [.sendLaunchEvent true])) = some s' ∧
        launchJob s'.db pausedRequest.id "e2" none ["build"] ["build"] 0 = (.ok launch, db') ∧
        launch.execution.execution.currentTask = "" ∧
        launch.sendsToAnt 0 (shellTask "build" "") = true := by
  refine ⟨by decide, by decide, ?_⟩
  exact exists_launch (by decide)

end Formicary.Lifecycle

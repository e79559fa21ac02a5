import Formicary.Verification.Supervisor.Rows

/-! # How a supervisor leaves its request

`tryExecuteJob` has several ways out, each with a statement of its own that has to take the request
out of EXECUTING. -/

namespace Formicary

open RequestState Database JobStateMachine JobSupervisor JobExecutionRepository Option

namespace JobStateMachine

/-- An operation that moves the rows of a job that is EXECUTING, in memory too, to a new state, and
does nothing to those of any other job. -/
structure Drives (m m' : JobStateMachine) (new : RequestState) : Prop where
  request : m'.request.id = m.request.id
  execution : m'.execution.id = m.execution.id
  moves : ∀ {req e}, Linked m.db req e → m.execution.id = e.id →
    m.execution.jobState = executing → req.jobState = executing → e.jobState = executing →
    ∃ req' e', Moves m.db m'.db req req' e e' new
  refused : ∀ {req e}, Linked m.db req e → m.execution.id = e.id → m.request.id = req.id →
    req.jobState ≠ executing → m'.db = m.db

variable (m : JobStateMachine) (c : Clock)

theorem finalize_drives {m' : JobStateMachine} (delay : Time) (hdb : m'.db = m.db)
    (hreq : m'.request.id = m.request.id) (hex : m'.execution.id = m.execution.id)
    (hnew : m'.execution.jobState.canFinalize = true) :
    Drives m (m'.finalize executing delay c).1.publish m'.execution.jobState where
  request := by simpa [publish, report] using hreq
  execution := by simpa [publish, report] using hex
  moves hlink hid _ hstate hstate' := by
    rw [← hdb] at hlink ⊢
    exact (finalize_moves hlink (hex.trans hid) rfl hstate hstate' hnew delay c).2
  refused hlink hid _ hstate := by
    rw [← hdb] at hlink ⊢
    exact (finalize_refused hlink (hex.trans hid) hstate delay c).2

theorem failed_drives (cancelled : Bool) (err errorCode : String) :
    Drives m (m.failed executing cancelled err errorCode c).1 (failedState cancelled) where
  request := (m.failed_job executing cancelled err errorCode c).1
  execution := (m.failed_job executing cancelled err errorCode c).2.1
  moves hlink hid _ := failed_moves hlink hid cancelled err errorCode c rfl
  refused hlink hid := failed_refused hlink hid cancelled err errorCode c

theorem executionCompleted_drives : Drives m (m.executionCompleted c).1 completed :=
  m.finalize_drives c 0 rfl rfl rfl rfl

variable {m} in
theorem drives_self {new : RequestState} (h : m.execution.jobState ≠ executing) : Drives m m new :=
  ⟨rfl, rfl, fun _ _ hexec => absurd hexec h, fun _ _ _ _ => rfl⟩

theorem pauseJob_drives : Drives m (m.pauseJob c).1 paused := by
  unfold pauseJob
  split
  · exact m.finalize_drives c c.delay rfl rfl rfl rfl
  · next hne => exact drives_self hne

theorem executionFailed_drives (errorCode errorMsg : String) :
    Drives m (m.executionFailed errorCode errorMsg c).1 .failed := by
  unfold executionFailed
  split
  · next hterm => exact drives_self fun hexec => by simp [hexec, isTerminal] at hterm
  have hfail := m.failed_drives c false errorMsg
    (if errorCode = "" then ErrorCodes.jobExecute else errorCode)
  exact { hfail with }

theorem executionCancelled_drives (errorCode errorMsg : String) :
    Drives m (m.executionCancelled errorCode errorMsg c).1 .cancelled := by
  unfold executionCancelled
  split
  · next hterm => exact drives_self fun hexec => by simp [hexec, isTerminal] at hterm
  have hfail := (m.report .cancelled).failed_drives c true errorMsg
    (if errorCode = "" then ErrorCodes.jobCancelled else errorCode)
  exact { hfail with }

theorem restartJobBackToPendingPaused_refused (err : String) :
    (m.restartJobBackToPendingPaused err c).1.db = m.db := by
  simp [restartJobBackToPendingPaused, updateJobRequestState, save, report,
    JobRequestRepository.updateJobState, canTransitionTo]

end JobStateMachine

/-- A supervisor with the lifecycle events it has been sent so far. -/
structure Supervision where
  supervisor : JobSupervisor
  events : List RequestState

def Location.isClosing : Location → Bool
  | .evaluate (some _) | .finish (some _) | .cleanup .. | .cleaning .. | .conclude _
  | .returned _ => true
  | _ => false

def Location.isReturned : Location → Bool
  | .returned _ => true
  | _ => false

def Location.concluding : Location → Option String
  | .conclude err => some err
  | _ => none

namespace Supervision

variable (w : Workflow) (t : Supervision)

def delivered : Action → List RequestState
  | .lifecycleEvent state _ => [state]
  | _ => []

/-- A step of the supervisor. Nobody else changes the rows of the job. -/
def step : Action → Option Supervision
  | .database _ => none
  | action =>
    (t.supervisor.step w action).map fun s => ⟨s, delivered action ++ t.events⟩

/-- The request and the execution are READY, in memory and in the database. -/
structure Launched : Prop where
  initial : JobSupervisor.Initial t.supervisor
  events : t.events = []
  rows : ∃ req e, Linked t.supervisor.machine.db req e ∧
    t.supervisor.machine.request.id = req.id ∧ t.supervisor.machine.execution.id = e.id ∧
    req.jobState = ready ∧ e.jobState = ready

def system : TransitionSystem Supervision Action where
  init := Launched
  step := step w

def row : Option JobRequest :=
  t.supervisor.machine.db.requests.find? t.supervisor.machine.request.id

def Leaves (req : JobRequest) : Prop :=
  req.jobState.isTerminal = true ∨ req.jobState = paused ∧
      (t.supervisor.errorCode = ErrorCodes.pauseJob ∨ paused ∈ t.events) ∨
    req.jobState = manualApprovalRequired ∧
      t.supervisor.errorCode = ErrorCodes.manualApprovalRequired ∨
    (req.jobState = pending ∨ req.jobState = paused) ∧
      t.supervisor.errorCode = ErrorCodes.restartJob ∧
      req.retried = t.supervisor.machine.request.retried

/-- Once `tryExecuteJob` has returned, the request is not left EXECUTING. -/
def Settled : Prop :=
  t.supervisor.location.isReturned = true → ∃ req ∈ t.row, t.Leaves req

/-- A job that is still EXECUTING when its error code is acted upon asks neither for a restart nor
for an approval. -/
def Closable : Action → Prop
  | .proceed _ =>
    ∀ _err ∈ t.supervisor.location.concluding, ∀ req ∈ t.row, req.jobState = executing →
      t.supervisor.errorCode ≠ ErrorCodes.restartJob ∧
        t.supervisor.errorCode ≠ ErrorCodes.manualApprovalRequired
  | _ => True

instance : DecidablePred t.Closable := by
  rintro ⟨⟩ <;> dsimp only [Closable] <;> infer_instance

/-- The rows of the job. -/
structure Held (req : JobRequest) (e : JobExecution) : Prop where
  linked : Linked t.supervisor.machine.db req e
  request : t.supervisor.machine.request.id = req.id
  execution : t.supervisor.machine.execution.id = e.id
  location : t.supervisor.location ≠ .start

/-- What has become of the rows since the job was started. -/
inductive Standing (req : JobRequest) (e : JobExecution) : Prop where
  | executing (hreq : req.jobState = executing) (hexec : e.jobState = executing)
      (hmemory : t.supervisor.machine.execution.jobState = executing)
      (hlocation : t.supervisor.location.isReturned = false)
  | ended (hreq : req.jobState.isTerminal = true)
  | paused (hreq : req.jobState = paused)
      (hasked : paused ∈ t.events ∨ t.supervisor.errorCode = ErrorCodes.pauseJob ∧
        t.supervisor.location.isClosing = true)
  | waiting (hreq : req.jobState = manualApprovalRequired)
      (hasked : t.supervisor.errorCode = ErrorCodes.manualApprovalRequired)
      (hlocation : t.supervisor.location.isClosing = true)

def Inv : Prop :=
  t.Launched ∨ ∃ req e, t.Held req e ∧ t.Standing req e

variable {w t} {t' : Supervision} {req req' : JobRequest} {e e' : JobExecution}

theorem Held.row (h : t.Held req e) : t.row = some req :=
  Table.find?_eq_some_iff.mpr ⟨h.linked.mem, h.request.symm⟩

theorem Standing.leaves (h : t.Standing req e)
    (hret : t.supervisor.location.isReturned = true) : t.Leaves req := by
  cases h with
  | executing _ _ _ hloc => simp [hloc] at hret
  | ended hreq => exact .inl hreq
  | paused hreq hasked =>
    exact .inr (.inl ⟨hreq, hasked.elim .inr fun hcode => .inl hcode.1⟩)
  | waiting hreq hasked => exact .inr (.inr (.inl ⟨hreq, hasked⟩))

theorem Inv.settled (h : t.Inv) : t.Settled := by
  intro hret
  rcases h with hlaun | ⟨req, e, hheld, hstand⟩
  · simp [hlaun.initial.location, Location.isReturned] at hret
  · exact ⟨req, hheld.row, hstand.leaves hret⟩

theorem Standing.memory (h : t.Standing req e) (hstate : req.jobState = RequestState.executing) :
    e.jobState = RequestState.executing ∧
      t.supervisor.machine.execution.jobState = RequestState.executing := by
  cases h with
  | executing _ hexec hmemo => exact ⟨hexec, hmemo⟩
  | ended hreq => simp [hstate, isTerminal] at hreq
  | paused hreq | waiting hreq => simp [hstate] at hreq

def Keeps (t t' : Supervision) : Prop :=
  t.supervisor.location.isClosing = true → t.supervisor.errorCode ∈ finalErrorCodes →
    t'.supervisor.location.isClosing = true ∧ t'.supervisor.errorCode = t.supervisor.errorCode

theorem keeps_of_open (h : t.supervisor.location.isClosing = false) : Keeps t t' :=
  fun hclos => absurd (h.symm.trans hclos) Bool.false_ne_true

theorem Standing.still (h : t.Standing req e) (hne : req.jobState ≠ RequestState.executing)
    (hevs : t.events ⊆ t'.events) (hkeeps : Keeps t t') : t'.Standing req e := by
  cases h with
  | executing hreq => exact absurd hreq hne
  | ended hreq => exact .ended hreq
  | paused hreq hasked =>
    refine .paused hreq ?_
    rcases hasked with hmem | ⟨hcode, hclos⟩
    · exact .inl (hevs hmem)
    obtain ⟨hclos', hcode'⟩ := hkeeps hclos (by rw [hcode]; decide)
    exact .inr ⟨hcode'.trans hcode, hclos'⟩
  | waiting hreq hasked hclos =>
    obtain ⟨hclos', hcode'⟩ := hkeeps hclos (by rw [hasked]; decide)
    exact .waiting hreq (hcode'.trans hasked) hclos'

/-- A step of `tryExecuteJob` between its statements. -/
structure Glides (s s' : JobSupervisor) : Prop where
  db : s'.machine.db = s.machine.db
  request : s'.machine.request.id = s.machine.request.id
  execution : s'.machine.execution = s.machine.execution
  start : s'.location ≠ .start
  returned : s'.location.isReturned = false
  keeps : Keeps ⟨s, []⟩ ⟨s', []⟩

variable {s' : JobSupervisor}

theorem taskDone_glides (s : JobSupervisor) (taskType : String) (outcome : TaskOutcome) (c : Clock)
    (hloc : s.location.isClosing = false) : Glides s (s.taskDone w taskType outcome c) := by
  have hjob := s.machine.submitTask_sameJob w taskType outcome c.now
  have hkeeps : ∀ t' : Supervision, Keeps ⟨s, []⟩ t' := fun _ => keeps_of_open hloc
  unfold taskDone
  dsimp only
  repeat' split
  all_goals exact ⟨hjob.db, congrArg _ hjob.request, hjob.execution, by simp, rfl, hkeeps _⟩

variable {c : Clock}

theorem glides_of_passes {s : JobSupervisor} (h : JobSupervisor.Passes w c s s') : Glides s s' := by
  cases h with
  | opens hl | unopened hl | stops hl | submits hl | succeeds hl | unasked hl | repeats hl
  | exhausted hl =>
    exact ⟨rfl, rfl, rfl, by simp, rfl, keeps_of_open (by rw [hl]; rfl)⟩
  | @givesUp err _ _ hl hverd =>
    refine ⟨rfl, rfl, rfl, by simp, rfl, ?_⟩
    cases err with
    | none => exact keeps_of_open (by rw [hl]; rfl)
    | some =>
      cases hverd
      exact fun _ _ => ⟨rfl, rfl⟩
  | @fails err _ _ hl hverd hcode =>
    refine ⟨rfl, rfl, rfl, by simp, rfl, ?_⟩
    cases err with
    | none => exact keeps_of_open (by rw [hl]; rfl)
    | some =>
      cases hverd
      exact fun _ hfinal => absurd hfinal hcode
  | cleansUp | closes | skips | cleans =>
    exact ⟨rfl, rfl, rfl, by simp, rfl, fun _ _ => ⟨rfl, rfl⟩⟩

theorem inv_start (h : t.Launched)
    (he : t.supervisor.proceed w c = some s') : Inv ⟨s', t.events⟩ := by
  obtain ⟨req, e, hlink, hreq, hex, hready, hready'⟩ := h.rows
  obtain ⟨db', req', e', hok, hmoves⟩ := update_moves hlink executing rfl
    "" c.now rfl hready hready'
  have hmoved := hmoves.2.2
  rw [← hex] at hok
  unfold proceed at he
  simp only [h.initial.location, setJobStatusToExecuting, hok] at he
  cases he
  refine .inr ⟨req', e', ⟨hmoves.linked hlink, ?_, ?_, by simp⟩, ?_⟩
  · exact hreq.trans hmoved.requestID.symm
  · exact hex.trans hmoved.id.symm
  · exact .executing hmoved.state hmoved.executionState rfl rfl

variable {err : String}

theorem closable_conclude (hheld : t.Held req e) (hloc : t.supervisor.location = .conclude err) :
    t.Closable (.proceed c) ↔ (req.jobState = executing →
      t.supervisor.errorCode ≠ ErrorCodes.restartJob ∧
        t.supervisor.errorCode ≠ ErrorCodes.manualApprovalRequired) := by
  simp [Closable, hloc, Location.concluding, hheld.row]

section Held

variable (hheld : t.Held req e) (hstand : t.Standing req e)
include hheld hstand

theorem Inv.glide (h : Glides t.supervisor s') : Inv ⟨s', t.events⟩ := by
  refine .inr ⟨req, e, ⟨?_, ?_, ?_, h.start⟩, ?_⟩
  · exact h.db.symm ▸ hheld.linked
  · exact h.request.trans hheld.request
  · exact (congrArg JobExecution.id h.execution).trans hheld.execution
  · by_cases hstate : req.jobState = executing
    · obtain ⟨hexec, hmemo⟩ := hstand.memory hstate
      exact .executing hstate hexec ((congrArg _ h.execution).trans hmemo) h.returned
    · exact hstand.still hstate (List.Subset.refl _) h.keeps

theorem Inv.drive {new : RequestState}
    (hdrives : t.supervisor.machine.Drives t'.supervisor.machine new)
    (hloc : t'.supervisor.location ≠ .start) (hevs : t.events ⊆ t'.events)
    (hkeeps : Keeps t t') (hnew : new.isTerminal = true ∨ new = paused ∧ (paused ∈ t'.events ∨
      t'.supervisor.errorCode = ErrorCodes.pauseJob ∧
        t'.supervisor.location.isClosing = true)) : t'.Inv := by
  have hreq := hdrives.request.trans hheld.request
  have hex := hdrives.execution.trans hheld.execution
  by_cases hstate : req.jobState = executing
  · obtain ⟨hexec, hmemo⟩ := hstand.memory hstate
    obtain ⟨req', e', hmoves⟩ := hdrives.moves hheld.linked hheld.execution hmemo hstate hexec
    have hmoved := hmoves.2.2
    refine .inr ⟨req', e', ⟨hmoves.linked hheld.linked, ?_, ?_, hloc⟩, ?_⟩
    · exact hreq.trans hmoved.requestID.symm
    · exact hex.trans hmoved.id.symm
    · rcases hnew with hterm | ⟨rfl, hasked⟩
      · exact .ended (hmoved.state ▸ hterm)
      · exact .paused hmoved.state hasked
  · have hdb := hdrives.refused hheld.linked hheld.execution hheld.request hstate
    exact .inr ⟨req, e, ⟨hdb ▸ hheld.linked, hreq, hex, hloc⟩, hstand.still hstate hevs hkeeps⟩

theorem Inv.idle (hstate : req.jobState ≠ executing)
    (hdb : t'.supervisor.machine.db = t.supervisor.machine.db)
    (hreq : t'.supervisor.machine.request.id = t.supervisor.machine.request.id)
    (hex : t'.supervisor.machine.execution.id = t.supervisor.machine.execution.id)
    (hloc : t'.supervisor.location ≠ .start) (hevs : t.events ⊆ t'.events)
    (hkeeps : Keeps t t') : t'.Inv :=
  .inr ⟨req, e, ⟨hdb ▸ hheld.linked, hreq.trans hheld.request,
    hex.trans hheld.execution, hloc⟩, hstand.still hstate hevs hkeeps⟩

theorem inv_approval {taskType : String} (hloc : t.supervisor.location = .approval taskType)
    (he : t.supervisor.proceed w c = some s') : Inv ⟨s', t.events⟩ := by
  have hopen : t.supervisor.location.isClosing = false := by rw [hloc]; rfl
  unfold proceed at he
  simp only [hloc, hheld.execution] at he
  by_cases hstate : req.jobState = executing
  · obtain ⟨db', req', e', hok, hmoves⟩ := update_moves hheld.linked
      manualApprovalRequired rfl taskType c.now rfl hstate (hstand.memory hstate).1
    have hmoved := hmoves.2.2
    rw [hok] at he
    cases he
    refine .inr ⟨req', e', ⟨hmoves.linked hheld.linked, ?_, ?_, by simp⟩, ?_⟩
    · exact hheld.request.trans hmoved.requestID.symm
    · exact hheld.execution.trans hmoved.id.symm
    · exact .waiting hmoved.state rfl rfl
  · obtain ⟨err, herr⟩ := update_refused hheld.linked
      manualApprovalRequired rfl taskType c.now hstate
    rw [herr] at he
    cases he
    exact Inv.idle hheld hstand hstate rfl rfl rfl (by simp) (List.Subset.refl _)
      (keeps_of_open hopen)

theorem inv_lifecycleEvent {state : RequestState}
    (he : t.supervisor.step w (.lifecycleEvent state c) = some s') :
    Inv ⟨s', state :: t.events⟩ := by
  obtain ⟨⟨_, hstate⟩, he⟩ := ite_none_right_eq_some.mp he
  cases he
  have hkeeps : ∀ m, Keeps t ⟨{ t.supervisor with machine := m }, state :: t.events⟩ :=
    fun m hclos _ => ⟨hclos, rfl⟩
  have hsub : t.events ⊆ state :: t.events := List.subset_cons_self _ _
  rcases hstate with rfl | rfl
  · exact Inv.drive hheld hstand (executionCancelled_drives _ c _ _) hheld.location hsub
      (hkeeps _) (.inl rfl)
  · exact Inv.drive hheld hstand (pauseJob_drives _ c) hheld.location hsub (hkeeps _)
      (.inr ⟨rfl, .inl List.mem_cons_self⟩)

theorem inv_finish (hloc : t.supervisor.location = .finish none)
    (he : t.supervisor.proceed w c = some s') : Inv ⟨s', t.events⟩ := by
  unfold proceed at he
  simp only [hloc] at he
  cases he
  exact Inv.drive hheld hstand (executionCompleted_drives _ c) (by simp)
    (List.Subset.refl _) (keeps_of_open (by rw [hloc]; rfl)) (.inl rfl)

theorem inv_conclude (hloc : t.supervisor.location = .conclude err)
    (hok : t.Closable (.proceed c)) : Inv ⟨t.supervisor.conclude err c, t.events⟩ := by
  rw [closable_conclude hheld hloc] at hok
  have hkeeps : ∀ m err', Keeps t
      ⟨{ t.supervisor with machine := m, location := .returned err' }, t.events⟩ :=
    fun _ _ _ _ => ⟨rfl, rfl⟩
  have hsub : t.events ⊆ t.events := List.Subset.refl _
  unfold conclude
  split
  · next hrest =>
    exact Inv.idle hheld hstand (fun hexec => (hok hexec).1 hrest)
      (t.supervisor.machine.restartJobBackToPendingPaused_refused c err)
      (by simp [restartJobBackToPendingPaused])
      (by simp [restartJobBackToPendingPaused]) (by simp) hsub (hkeeps _ _)
  split
  · next hpause =>
    exact Inv.drive hheld hstand (pauseJob_drives _ c) (by simp) hsub (hkeeps _ _)
      (.inr ⟨rfl, .inr ⟨hpause, rfl⟩⟩)
  split
  · next happr =>
    exact Inv.idle hheld hstand (fun hexec => (hok hexec).2 happr) rfl rfl rfl (by simp) hsub
      (hkeeps _ _)
  · exact Inv.drive hheld hstand (executionFailed_drives _ c _ _) (by simp) hsub (hkeeps _ _)
      (.inl rfl)

end Held

theorem not_settled_conclude (hheld : t.Held req e)
    (hloc : t.supervisor.location = .conclude err) (hok : ¬ t.Closable (.proceed c)) :
    ¬ Settled ⟨t.supervisor.conclude err c, t.events⟩ := by
  rw [closable_conclude hheld hloc] at hok
  push Not at hok
  obtain ⟨hexec, hcode⟩ := hok
  have hrow : Supervision.row ⟨t.supervisor.conclude err c, t.events⟩ = some req ∧
      (t.supervisor.conclude err c).location.isReturned = true := by
    rw [← hheld.row]
    unfold conclude Supervision.row
    split
    · refine ⟨?_, rfl⟩
      rw [restartJobBackToPendingPaused_refused]
      simp [restartJobBackToPendingPaused]
    · next hrest =>
      have happr := hcode hrest
      rw [happr, if_neg (by decide), if_pos rfl]
      exact ⟨rfl, rfl⟩
  intro hset
  obtain ⟨r, hr, hleaves⟩ := hset hrow.2
  rw [hrow.1] at hr
  cases hr
  simp [Leaves, hexec, isTerminal] at hleaves

theorem inv_proceed (h : t.Inv)
    (he : t.supervisor.proceed w c = some s') (hok : t.Closable (.proceed c)) :
    Inv ⟨s', t.events⟩ := by
  rcases h with hlaun | ⟨req, e, hheld, hstand⟩
  · exact inv_start hlaun he
  cases proceeds_of_proceed he with
  | launches hl | unlaunched hl => exact absurd hl hheld.location
  | passes h => exact Inv.glide hheld hstand (glides_of_passes h)
  | asks hl => exact inv_approval hheld hstand hl he
  | completes hl => exact inv_finish hheld hstand hl he
  | concludes hl => exact inv_conclude hheld hstand hl hok

theorem inv_taskDone {outcome : TaskOutcome} (h : t.Inv)
    (he : t.supervisor.step w (.taskDone outcome c) = some s') : Inv ⟨s', t.events⟩ := by
  unfold JobSupervisor.step at he
  dsimp only at he
  rcases h with hlaun | ⟨req, e, hheld, hstand⟩
  · simp [hlaun.initial.location] at he
  split at he
  · next taskType hl =>
    cases he
    exact Inv.glide hheld hstand (taskDone_glides _ taskType outcome c (by rw [hl]; rfl))
  · next taskType taskTypes err hl =>
    cases he
    have hjob := t.supervisor.machine.submitTask_sameJob w taskType outcome c.now
    exact Inv.glide hheld hstand ⟨hjob.db, congrArg _ hjob.request, hjob.execution,
      by simp, rfl, fun _ _ => ⟨rfl, rfl⟩⟩
  · cases he

theorem Inv.not_settled (h : t.Inv)
    (he : t.supervisor.proceed w c = some s') (hok : ¬ t.Closable (.proceed c)) :
    ¬ Settled ⟨s', t.events⟩ := by
  obtain ⟨err, hloc⟩ : ∃ err, t.supervisor.location = .conclude err := by
    cases hl : t.supervisor.location with
    | conclude err => exact ⟨err, rfl⟩
    | _ => exact absurd (by simp [Closable, hl, Location.concluding]) hok
  rcases h with hlaun | ⟨req, e, hheld, hstand⟩
  · simp [hlaun.initial.location] at hloc
  unfold proceed at he
  simp only [hloc] at he
  cases he
  exact not_settled_conclude hheld hloc hok

theorem step_iff {action : Action} (h : t.Inv) (he : t.step w action = some t') :
    (t'.Settled ↔ t.Closable action) ∧ (t.Closable action → t'.Inv) := by
  have htrue : ∀ {p : Prop}, p → t'.Inv → (t'.Settled ↔ p) ∧ (p → t'.Inv) :=
    fun hp hinv => ⟨iff_of_true hinv.settled hp, fun _ => hinv⟩
  cases action with
  | database => cases he
  | proceed c =>
    obtain ⟨s', hstep, rfl⟩ := map_eq_some_iff.mp he
    by_cases hok : t.Closable (.proceed c)
    · exact htrue hok (inv_proceed h hstep hok)
    · exact ⟨iff_of_false (h.not_settled hstep hok) hok, fun hok' => absurd hok' hok⟩
  | taskDone =>
    obtain ⟨s', hstep, rfl⟩ := map_eq_some_iff.mp he
    exact htrue trivial (inv_taskDone h hstep)
  | lifecycleEvent =>
    obtain ⟨s', hstep, rfl⟩ := map_eq_some_iff.mp he
    rcases h with hlaun | ⟨req, e, hheld, hstand⟩
    · simp [JobSupervisor.step, hlaun.initial.location] at hstep
    · exact htrue trivial (inv_lifecycleEvent hheld hstand hstep)

/-- A supervisor leaves its request settled in exactly those runs in which a job that ends with an
error while EXECUTING asks neither for a restart nor for an approval. -/
theorem settled_iff_closable (h : t.Launched) (actions : List Action) :
    (system w).Along Settled t actions ↔ (system w).Meets Closable t actions :=
  TransitionSystem.along_iff_meets (p := Settled) (I := Inv) (fun _ => Inv.settled)
    (fun _ _ _ hinv he => (step_iff hinv he).imp_left Iff.mp) (.inl h) actions

def launch : Supervision := ⟨launched, []⟩

theorem launched_launch : launch.Launched where
  initial := initial_launched
  events := rfl
  rows := by
    refine ⟨readyRequest, newJobExecution readyRequest "e1" 0,
      ⟨List.mem_singleton_self _, by decide, rfl, ?_⟩, rfl, rfl, rfl, rfl⟩
    intro r hr _
    exact List.mem_singleton.mp hr

theorem settled_completeBoth : (system compileAndTest).Along Settled launch completeBoth ∧
      (((system compileAndTest).runWith Closable launch completeBoth).any fun t =>
        t.row.any fun req => req.jobState = completed) = true :=
  ⟨(settled_iff_closable launched_launch completeBoth).mpr (by decide), by decide⟩

def exitCodes : Workflow :=
  .ofDeclared (jobOf [{ shellTask "compile" "test" with
    onExitCode := ((∅ : OnExitCode).insert "3" "RESTART_JOB").insert "5"
      "ERR_MANUAL_APPROVAL_REQUIRED" }, shellTask "test" ""]) (by decide)

def exitWith (exitCode : String) : List Action :=
  [.proceed {}, .proceed {}, .proceed {},
    .taskDone { run := .started (.invoked [.response ⟨failed, exitCode, "", "", "", none⟩] "") } {},
    .proceed {}, .proceed {}, .proceed {}]

theorem executing_after_restart : ¬ ∀ w t, (system w).Reachable t → t.Settled := by
  intro h
  obtain ⟨t, hreach, hret, hrow⟩ := TransitionSystem.exists_reachableWith
    (S := system exitCodes) (fun _ _ => True)
    (fun t => t.supervisor.location.isReturned = true ∧
      t.row.map JobRequest.jobState = some executing) (exitWith "3") launched_launch
    (by decide)
  obtain ⟨req, hreq, hleaves⟩ := h exitCodes t hreach hret
  rw [hreq] at hrow
  simp [Leaves, some.inj hrow, isTerminal] at hleaves

end Supervision

end Formicary

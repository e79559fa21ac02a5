import Formicary.Verification.Definition.Validation
import Formicary.Verification.Supervisor.Settlement

/-! # Tasks that are always run

`tryExecuteJob` submits the always-run tasks that are still missing if the request has ended in
memory, but a failed job ends there only later. -/

namespace Formicary

open RequestState JobSupervisor JobExecutionRepository
open JobStateMachine (canRetry incrRetried publish report setJobStatusToExecuting submitTask)

def Location.submitting : Location → Option String
  | .running taskType | .cleaning taskType _ _ => some taskType
  | _ => none

/-- A supervisor with the task types it has submitted so far. -/
structure Submission where
  supervisor : JobSupervisor
  submitted : List String

namespace Submission

variable (w : Workflow) (t : Submission)

def submits : Action → List String
  | .taskDone _ _ => t.supervisor.location.submitting.toList
  | _ => []

def step (action : Action) : Option Submission :=
  (t.supervisor.step w action).map fun s => ⟨s, t.submits action ++ t.submitted⟩

def system (s₀ : JobSupervisor) : TransitionSystem Submission Action where
  init t := t = ⟨s₀, []⟩
  step := step w

def Failed : Prop :=
  t.supervisor.location.isReturned = true ∧ t.supervisor.task ≠ none ∧
    t.supervisor.machine.execution.jobState = failed

instance : Decidable t.Failed :=
  inferInstanceAs (Decidable (_ ∧ _ ∧ _))

/-- Every run that ends with the job FAILED has submitted every always-run task. -/
def AlwaysRun (s₀ : JobSupervisor) : Prop :=
  ∀ t : Submission, (system w s₀).Reachable t → t.Failed →
    ∀ td ∈ w.stored.getLastAlwaysRunTasks, td.taskType ∈ t.submitted

/-- The task that the first attempt starts with: the one the execution is to be resumed at, or the
first task of the definition. -/
def startTask (s₀ : JobSupervisor) : Except Error String :=
  { s₀ with startTaskType := s₀.machine.execution.currentTask }.firstTask w

variable {w t} {t' : Submission} {s s' s₀ : JobSupervisor} {start : String} {c : Clock}

/-- The job was started and has ended in another way. -/
structure Closed (s : JobSupervisor) : Prop where
  location : s.location ≠ .start
  execution : s.machine.execution.jobState = cancelled ∨ s.machine.execution.jobState = completed

section

variable (h : Closed s)
include h

theorem Closed.isTerminal : s.machine.execution.jobState.isTerminal = true := by
  rcases h.execution with h | h <;> simp [h, RequestState.isTerminal]

theorem Closed.of_execution (hloc : s'.location ≠ .start)
    (hex : s'.machine.execution = s.machine.execution) : Closed s' :=
  ⟨hloc, by rw [hex]; exact h.execution⟩

theorem Closed.pauseJob (c : Clock) : (s.machine.pauseJob c).1 = s.machine :=
  s.machine.pauseJob_of_not_executing c fun hexec => by
    have hterm := h.isTerminal
    simp [hexec, RequestState.isTerminal] at hterm

theorem Closed.conclude (err : String) (c : Clock) : Closed (s.conclude err c) := by
  unfold JobSupervisor.conclude
  split
  · refine h.of_execution (by simp) ?_
    simp [JobStateMachine.restartJobBackToPendingPaused]
  split
  · exact h.of_execution (by simp) (congrArg _ (h.pauseJob c))
  split
  · exact h.of_execution (by simp) rfl
  refine h.of_execution (by simp) ?_
  rw [JobStateMachine.executionFailed_of_terminal _ _ _ _ h.isTerminal]

theorem Closed.proceed (he : s.proceed w c = some s') : Closed s' := by
  cases proceeds_of_proceed he with
  | launches hl | unlaunched hl => exact absurd hl h.location
  | passes hpass =>
    have hglide := Supervision.glides_of_passes hpass
    exact h.of_execution hglide.start hglide.execution
  | asks => exact h.of_execution (by simp) rfl
  | completes =>
    refine ⟨by simp, .inr ?_⟩
    simp [JobStateMachine.executionCompleted, publish, report]
  | concludes => exact h.conclude _ c

theorem Closed.step {action : Action} (he : s.step w action = some s') : Closed s' := by
  cases action with
  | proceed => exact h.proceed he
  | database =>
    cases he
    exact ⟨h.location, h.execution⟩
  | taskDone outcome c =>
    cases hl : s.location <;> simp only [JobSupervisor.step, hl] at he <;> cases he
    case taskDone.running.refl taskType =>
      have hglide := Supervision.taskDone_glides (w := w) s taskType outcome c (by rw [hl]; rfl)
      exact h.of_execution hglide.start hglide.execution
    case taskDone.cleaning.refl taskType taskTypes err =>
      exact h.of_execution (by simp) (s.machine.submitTask_sameJob w _ _ _).execution
  | lifecycleEvent state c =>
    simp only [JobSupervisor.step] at he
    split at he <;> cases he
    next hguard =>
    obtain ⟨hl, rfl | rfl⟩ := hguard
    · refine h.of_execution hl (congrArg _ ?_)
      exact JobStateMachine.executionCancelled_of_terminal _ _ _ _ h.isTerminal
    · exact h.of_execution hl (congrArg _ (h.pauseJob c))

end

/-- How far a run is: the supervisor has not got to its start task, or has submitted it, or was kept
from submitting it because the job has ended otherwise or could not be launched. -/
inductive Begun (s₀ : JobSupervisor) (start : String) (t : Submission) : Prop where
  | waiting (hlocation : t.supervisor.location = .start) (htask : t.supervisor.task = none)
      (hcurrent : t.supervisor.machine.execution.currentTask = s₀.machine.execution.currentTask)
  | opening (hlocation : t.supervisor.location = .attempt) (htask : t.supervisor.task = none)
      (hstart : t.supervisor.startTaskType = s₀.machine.execution.currentTask)
      (hexecution : t.supervisor.machine.execution.jobState ≠ failed)
  | entering (hlocation : t.supervisor.location = .enter start ∨
        t.supervisor.location = .running start)
      (hexecution : t.supervisor.machine.execution.jobState ≠ failed)
  | submitted (hmem : start ∈ t.submitted)
  | closed (hclosed : Closed t.supervisor)
  | unlaunched (hlocation : t.supervisor.location.isReturned = true)
      (htask : t.supervisor.task = none)

theorem Begun.mem_submitted (h : Begun s₀ start t) (hfail : t.Failed) : start ∈ t.submitted := by
  obtain ⟨hret, htask, hstate⟩ := hfail
  cases h with
  | waiting hloc | opening hloc => simp [hloc, Location.isReturned] at hret
  | entering hloc =>
    rcases hloc with hloc | hloc <;> simp [hloc, Location.isReturned] at hret
  | submitted hmem => exact hmem
  | closed hclos =>
    rcases hclos.execution with h | h <;> simp [h] at hstate
  | unlaunched _ hnone => exact absurd hnone htask

theorem executionCancelled_ne_failed {m : JobStateMachine}
    (h : m.execution.jobState ≠ failed) (errorCode errorMsg : String) (c : Clock) :
    (m.executionCancelled errorCode errorMsg c).1.execution.jobState ≠ failed := by
  cases hterm : m.execution.jobState.isTerminal with
  | true => rwa [JobStateMachine.executionCancelled_of_terminal _ _ _ _ hterm]
  | false =>
    rw [(m.executionCancelled_spec c errorCode errorMsg hterm).execution]
    decide

theorem pauseJob_ne_failed {m : JobStateMachine} (h : m.execution.jobState ≠ failed) (c : Clock) :
    (m.pauseJob c).1.execution.jobState ≠ failed := by
  by_cases hexec : m.execution.jobState = executing
  · simp [JobStateMachine.pauseJob, hexec, JobStateMachine.publish, JobStateMachine.report]
  · rwa [m.pauseJob_of_not_executing c hexec]

theorem step_lifecycleEvent {state : RequestState}
    (he : s.step w (.lifecycleEvent state c) = some s') :
    s.location ≠ .start ∧ s'.location = s.location ∧ s'.task = s.task ∧
      s'.startTaskType = s.startTaskType ∧
      (s.machine.execution.jobState ≠ failed → s'.machine.execution.jobState ≠ failed) := by
  simp only [JobSupervisor.step] at he
  split at he <;> cases he
  next hguard =>
  obtain ⟨hl, rfl | rfl⟩ := hguard
  · exact ⟨hl, rfl, rfl, rfl, fun h => executionCancelled_ne_failed h _ _ c⟩
  · exact ⟨hl, rfl, rfl, rfl, fun h => pauseJob_ne_failed h c⟩

theorem Begun.lifecycleEvent (h : Begun s₀ start t) {state : RequestState}
    (he : t.supervisor.step w (.lifecycleEvent state c) = some s') :
    Begun s₀ start ⟨s', t.submitted⟩ := by
  obtain ⟨hstart, hloc', htask', hstart', hstate'⟩ := step_lifecycleEvent he
  cases h with
  | waiting hloc => exact absurd hloc hstart
  | opening hloc htask hname hstate =>
    exact .opening (hloc'.trans hloc) (htask'.trans htask) (hstart'.trans hname) (hstate' hstate)
  | entering hloc hstate =>
    exact .entering (by rwa [hloc']) (hstate' hstate)
  | submitted hmem => exact .submitted hmem
  | closed hclos => exact .closed (hclos.step he)
  | unlaunched hret htask =>
    exact .unlaunched (by rwa [hloc']) (htask'.trans htask)

theorem proceed_start (hl : s.location = .start) (he : s.proceed w c = some s') :
    s'.task = s.task ∧ (s'.location.isReturned = true ∨ s'.location = .attempt ∧
      s'.startTaskType = s.machine.execution.currentTask ∧
      s'.machine.execution.jobState = executing) := by
  simp only [proceed, hl, setJobStatusToExecuting] at he
  split at he
  · next hset =>
    cases he
    split at hset <;> cases hset
    exact ⟨rfl, .inr ⟨rfl, rfl, rfl⟩⟩
  · cases he
    exact ⟨rfl, .inl rfl⟩

section Start

variable (hinit : JobSupervisor.Initial s₀) (hstart : startTask w s₀ = .ok start)
include hinit hstart

theorem Begun.proceed (h : Begun s₀ start t) (he : t.supervisor.proceed w c = some s') :
    Begun s₀ start ⟨s', t.submitted⟩ := by
  cases h with
  | waiting hloc htask hcur =>
    obtain ⟨htask', hret | ⟨hloc', hname, hstate⟩⟩ := proceed_start hloc he
    · exact .unlaunched hret (htask'.trans htask)
    exact .opening hloc' (htask'.trans htask) (hname.trans hcur) (by rw [hstate]; decide)
  | opening hloc htask hname hstate =>
    have hfirst : t.supervisor.firstTask w = .ok start := by
      rw [← hstart]
      unfold startTask JobSupervisor.firstTask
      rw [htask, hname, hinit.task]
    simp only [JobSupervisor.proceed, hloc, hfirst] at he
    cases he
    exact .entering (.inl rfl) hstate
  | entering hloc hstate =>
    rcases hloc with hloc | hloc
    · simp only [JobSupervisor.proceed, hloc] at he
      split at he <;> cases he
      · next hterm =>
        refine .closed ⟨by simp, ?_⟩
        revert hstate hterm
        cases t.supervisor.machine.execution.jobState <;> decide
      · exact .entering (.inr rfl) hstate
    · simp [JobSupervisor.proceed, hloc] at he
  | submitted hmem => exact .submitted hmem
  | closed hclos => exact .closed (hclos.proceed he)
  | unlaunched hret =>
    cases hl : t.supervisor.location <;> simp [hl, Location.isReturned] at hret
    simp [JobSupervisor.proceed, hl] at he

theorem Begun.step (h : Begun s₀ start t) {action : Action} (he : t.step w action = some t') :
    Begun s₀ start t' := by
  obtain ⟨s', hs', rfl⟩ := Option.map_eq_some_iff.mp he
  cases action with
  | proceed => exact h.proceed hinit hstart hs'
  | lifecycleEvent => exact h.lifecycleEvent hs'
  | database =>
    cases hs'
    cases h with
    | waiting hloc htask hcur => exact .waiting hloc htask hcur
    | opening hloc htask hname hstate => exact .opening hloc htask hname hstate
    | entering hloc hstate => exact .entering hloc hstate
    | submitted hmem => exact .submitted hmem
    | closed hclos => exact .closed ⟨hclos.location, hclos.execution⟩
    | unlaunched hret htask => exact .unlaunched hret htask
  | taskDone =>
    cases h with
    | waiting hloc | opening hloc => simp [JobSupervisor.step, hloc] at hs'
    | entering hloc =>
      rcases hloc with hloc | hloc
      · simp [JobSupervisor.step, hloc] at hs'
      · exact .submitted (by simp [submits, hloc, Location.submitting])
    | submitted hmem => exact .submitted (List.mem_append_right _ hmem)
    | closed hclos => exact .closed (hclos.step hs')
    | unlaunched hret =>
      cases hl : t.supervisor.location <;> simp [hl, Location.isReturned] at hret
      simp [JobSupervisor.step, hl] at hs'

theorem start_mem_submitted (h : (system w s₀).Reachable t) (hfail : t.Failed) :
    start ∈ t.submitted := by
  have hbegun : Begun s₀ start t := by
    refine h.invariant ?_ fun _ _ _ hbegun _ he => hbegun.step hinit hstart he
    rintro _ rfl
    exact .waiting hinit.location hinit.task rfl
  exact hbegun.mem_submitted hfail

end Start

def unrendered : TaskOutcome where
  renderError := some "failed to render task"
  run := .unprepared ""

theorem submitTask_unrendered (m : JobStateMachine) (taskType : String) (now : Time) :
    ∃ err, m.submitTask w taskType unrendered now = ⟨m, none, some err⟩ := by
  unfold submitTask
  cases w.getDynamicTask taskType with
  | error | ok => exact ⟨_, rfl⟩

def CanFail (w : Workflow) (s₀ : JobSupervisor) (start : String) (t : Submission) : Prop :=
  (system w s₀).Reachable t → ∃ t' : Submission, (system w s₀).Reachable t' ∧ t'.Failed ∧
    ∀ taskType ∈ t'.submitted, taskType = start

variable {m : JobStateMachine} {startTaskType errorCode err : String} {submitted : List String}

theorem CanFail.of_proceed (s' : JobSupervisor) (he : s.proceed w {} = some s')
    (h : CanFail w s₀ start ⟨s', submitted⟩) : CanFail w s₀ start ⟨s, submitted⟩ :=
  fun hreach => h (hreach.step (a := .proceed {}) trivial (by
    simp only [system, step, JobSupervisor.step, he, Option.map_some]
    rfl))

/-- The job is EXECUTING in memory, and no error of a task has been matched. -/
structure Executing (m : JobStateMachine) : Prop where
  request : m.request.jobState = executing
  execution : m.execution.jobState = executing
  errorCode : m.errorCode = none

section Fail

variable (hm : Executing m) (hsub : ∀ taskType ∈ submitted, taskType = start)
include hm

include hsub in
theorem CanFail.finish :
    CanFail w s₀ start ⟨⟨m, startTaskType, some start, "", .finish (some err)⟩, submitted⟩ := by
  refine .of_proceed ⟨m, startTaskType, some start, "", .conclude err⟩ ?_ ?_
  · simp [proceed, hm.request, isTerminal]
  refine .of_proceed _ rfl fun hreach => ⟨_, hreach, ⟨rfl, by simp [conclude,
    ErrorCodes.restartJob, ErrorCodes.pauseJob, ErrorCodes.manualApprovalRequired], ?_⟩,
    hsub⟩
  have hspec := m.failed_spec {} executing false err ErrorCodes.jobExecute
  simp [conclude, ErrorCodes.restartJob, ErrorCodes.pauseJob,
    ErrorCodes.manualApprovalRequired, JobStateMachine.executionFailed, hm.execution, isTerminal,
    publish, report, hspec.execution]

theorem canRetry_incrRetried (jd : JobDefinition) :
    m.incrRetried.canRetry jd = true ↔ (m.request.retried : ℤ) < jd.retry := by
  have hcode : m.incrRetried.errorCode = none := hm.errorCode
  simp only [canRetry, hcode, Option.any_none, Bool.or_false, decide_eq_true_eq]
  simp only [incrRetried]
  omega

include hsub

theorem CanFail.evaluate (hagain : (m.request.retried : ℤ) < w.stored.retry → CanFail w s₀ start
      ⟨⟨m.incrRetried, "", some start, "", .enter start⟩, submitted⟩) :
    CanFail w s₀ start ⟨⟨m, startTaskType, some start, "", .evaluate (some err)⟩, submitted⟩ := by
  have hcode : "" ∉ finalErrorCodes := by decide
  have hm' : Executing m.incrRetried := { hm with }
  by_cases hlast : (m.request.retried : ℤ) = w.stored.retry
  · refine .of_proceed ⟨m, startTaskType, some start, "", .finish (some err)⟩ ?_ (.finish hm hsub)
    simp [proceed, hlast]
  refine .of_proceed ⟨m, "", some start, "", .retry err⟩ ?_ ?_
  · simp [proceed, hlast, hcode]
  by_cases hretry : (m.request.retried : ℤ) < w.stored.retry
  · have hcan := (canRetry_incrRetried hm w.stored).mpr hretry
    refine .of_proceed ⟨m.incrRetried, "", some start, "", .attempt⟩ ?_ ?_
    · simp [proceed, hcan]
    · exact .of_proceed _ rfl (hagain hretry)
  · have hcan := mt (canRetry_incrRetried hm w.stored).mp hretry
    refine .of_proceed ⟨m.incrRetried, "", some start, "", .finish (some err)⟩ ?_ (.finish hm' hsub)
    simp [proceed, hcan]

theorem CanFail.attempt (hagain : (m.request.retried : ℤ) < w.stored.retry →
      (∀ taskType ∈ start :: submitted, taskType = start) → CanFail w s₀ start
        ⟨⟨m.incrRetried, "", some start, "", .enter start⟩, start :: submitted⟩) :
    CanFail w s₀ start ⟨⟨m, startTaskType, some start, errorCode, .enter start⟩, submitted⟩ := by
  have hsub' : ∀ taskType ∈ start :: submitted, taskType = start :=
    List.forall_mem_cons.mpr ⟨rfl, hsub⟩
  refine .of_proceed ⟨m, startTaskType, some start, errorCode, .running start⟩ ?_ fun hreach => ?_
  · simp [JobSupervisor.proceed, hm.execution, isTerminal]
  obtain ⟨err, herr⟩ := submitTask_unrendered (w := w) m start 0
  have hdone : (system w s₀).step
      ⟨⟨m, startTaskType, some start, errorCode, .running start⟩, submitted⟩
      (.taskDone unrendered {}) =
    some ⟨⟨m, startTaskType, some start, "", .evaluate (some err)⟩, start :: submitted⟩ := by
    simp [system, step, JobSupervisor.step, JobSupervisor.taskDone, herr, submits,
      Location.submitting, JobStateMachine.Submitted.errorCode]
  exact CanFail.evaluate hm hsub' (fun h => hagain h hsub') (hreach.step trivial hdone)

theorem CanFail.enter (n : ℕ) (hn : (w.stored.retry - m.request.retried).toNat = n) :
    CanFail w s₀ start ⟨⟨m, startTaskType, some start, errorCode, .enter start⟩, submitted⟩ := by
  induction n generalizing m startTaskType errorCode submitted with
  | zero =>
    refine .attempt hm hsub fun hretry _ => ?_
    omega
  | succ n ih =>
    refine .attempt hm hsub fun hretry hsub' => ?_
    have hm' : Executing m.incrRetried := { hm with }
    refine ih hm' hsub' ?_
    simp only [incrRetried]
    omega

end Fail

def readyRows (m : JobStateMachine) : Database :=
  { Database.empty with
    requests := ⟨[{ m.request with
      jobState := ready, jobExecutionID := some m.execution.id }], by simp⟩
    executions := ⟨[{ m.execution with jobState := ready }], by simp⟩ }

theorem setJobStatusToExecuting_readyRows (m₀ : JobStateMachine) (hcode : m₀.errorCode = none) :
    ∃ m, { m₀ with db := readyRows m₀ }.setJobStatusToExecuting {} = (m, none) ∧
      m.execution.currentTask = m₀.execution.currentTask ∧ Executing m := by
  have hrows : ∃ db, updateJobRequestAndExecutionState (readyRows m₀)
      m₀.execution.id ready executing "" 0 = .ok db := by
    simp [updateJobRequestAndExecutionState,
      updateBoth, readyRows, Table.updateOne?, Table.affected, isTerminal,
      terminalStates]
  obtain ⟨db, hdb⟩ := hrows
  have hset : { m₀ with db := readyRows m₀ }.setJobStatusToExecuting {} = ({ m₀ with
        db := db
        request := { m₀.request with jobState := executing }
        execution := { m₀.execution with jobState := executing } }.publish, none) := by
    simp only [setJobStatusToExecuting, hdb]
  exact ⟨_, hset, rfl, rfl, rfl, hcode⟩

theorem exists_failed (hinit : JobSupervisor.Initial s₀) (hstart : startTask w s₀ = .ok start) :
    ∃ t : Submission, (system w s₀).Reachable t ∧ t.Failed ∧
      ∀ taskType ∈ t.submitted, taskType = start := by
  have hreach : (system w s₀).Reachable
      ⟨{ s₀ with machine := { s₀.machine with db := readyRows s₀.machine } }, []⟩ :=
    (TransitionSystem.ReachableWith.init (S := system w s₀) rfl).step
      (a := .database (readyRows s₀.machine)) trivial rfl
  obtain ⟨m, hm, hcur, hexec⟩ :=
    setJobStatusToExecuting_readyRows s₀.machine hinit.errorCode
  revert hreach
  refine CanFail.of_proceed ⟨m, m.execution.currentTask, s₀.task, s₀.errorCode, .attempt⟩ ?_ ?_
  · simp only [proceed, hinit.location, hm]
  refine CanFail.of_proceed ⟨m, m.execution.currentTask, some start, s₀.errorCode,
    .enter start⟩ ?_ (.enter hexec (by simp) _ rfl)
  have hfirst : firstTask w
      ⟨m, m.execution.currentTask, s₀.task, s₀.errorCode, .attempt⟩ = .ok start := by
    rw [hcur]
    exact hstart
  simp only [proceed, hfirst]

/-- Every run of a supervisor that ends with the job FAILED has submitted all always-run tasks
exactly if there is no always-run task but the one it starts with. -/
theorem alwaysRun_iff_start (hinit : JobSupervisor.Initial s₀) : AlwaysRun w s₀ ↔
      ∀ td ∈ w.stored.getLastAlwaysRunTasks, startTask w s₀ = .ok td.taskType := by
  obtain ⟨start, hstart⟩ : ∃ start, startTask w s₀ = .ok start := by
    obtain ⟨first, hfirst⟩ := w.stored_accepted.first
    unfold startTask firstTask
    dsimp only
    split
    · exact ⟨_, rfl⟩
    · exact ⟨_, by rw [hfirst]; rfl⟩
  rw [hstart]
  constructor
  · intro h td htd
    obtain ⟨t, hreach, hfail, honly⟩ := exists_failed hinit hstart
    rw [honly td.taskType (h t hreach hfail td htd)]
  · intro h t hreach hfail td htd
    rw [← Except.ok.inj (h td htd)]
    exact start_mem_submitted hinit hstart hreach hfail

def setUpAndBuild : Workflow :=
  .ofDeclared (jobOf [
    { shellTask "setup" "build" with alwaysRun := true },
    shellTask "build" ""]) (by decide)

theorem alwaysRun_setUpAndBuild : AlwaysRun setUpAndBuild launched := by
  refine (alwaysRun_iff_start initial_launched).mpr fun td htd => ?_
  have hnames : ∀ td ∈ setUpAndBuild.stored.getLastAlwaysRunTasks, td.taskType = "setup" := by
    decide
  rw [hnames td htd]
  rfl

def buildAndCleanUp : Workflow :=
  .ofDeclared (jobOf [shellTask "build" "test", shellTask "test" "cleanup",
    { shellTask "cleanup" "" with alwaysRun := true }]) (by decide)

def buildFails : List Action :=
  [.proceed {}, .proceed {}, .proceed {}, .taskDone (replied failed) {},
    .proceed {}, .proceed {}, .proceed {}]

theorem cleanup_not_submitted : ∃ t : Submission,
    (system buildAndCleanUp launched).Reachable t ∧ t.Failed ∧
      (t.supervisor.machine.db.requests.find? "r1").map JobRequest.jobState = some failed ∧
      t.submitted = ["build"] :=
  TransitionSystem.exists_reachableWith (S := system buildAndCleanUp launched)
    (fun _ _ => True) _ buildFails rfl (by decide)

theorem not_alwaysRun_buildAndCleanUp : ¬ AlwaysRun buildAndCleanUp launched := by
  intro h
  obtain ⟨t, hreach, hfail, _, hsub⟩ := cleanup_not_submitted
  have hcleanup : ∃ td ∈ buildAndCleanUp.stored.getLastAlwaysRunTasks,
      td.taskType = "cleanup" := by decide
  obtain ⟨td, htd, hname⟩ := hcleanup
  have hmem := h t hreach hfail td htd
  rw [hname, hsub] at hmem
  exact absurd hmem (by decide)

end Submission

end Formicary

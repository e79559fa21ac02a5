import Formicary.Verification.Supervisor.Machine

/-! # Cancellation and the task loop

A cancelled job makes `executeNextTask` return without an error, which the retry loop takes for
success unless a task that must not fail has failed. -/

namespace Formicary.JobSupervisor

open RequestState
open JobStateMachine (canRetry failedTask incrRetried publish report restartJobBackToPendingPaused)

def lastPublished (effects : List Effect) : Option RequestState :=
  effects.findSome? fun effect =>
    match effect with
    | .published state => some state
    | .cancelled => some cancelled
    | .recorded _ => none

/-- Nothing that comes after a cancellation says that the job completed. -/
def CancellationFinal (s : JobSupervisor) : Prop :=
  ∀ after before, s.machine.effects = after ++ Effect.cancelled :: before →
    s.machine.request.jobState ≠ completed ∧ s.machine.execution.jobState ≠ completed ∧
    Effect.recorded .succeeded ∉ after ∧ Effect.published completed ∉ after ∧
    (lastPublished s.machine.effects = some cancelled ∨
      lastPublished s.machine.effects = some failed)

/-- The loop cannot take the job for completed: it has ended with an error or is about to, or a
task that must not fail has failed, or the task in flight has still to show it. -/
def stops (w : Workflow) (s : JobSupervisor) : Bool :=
  match s.location with
  | .running _ | .finish (some _) | .cleanup .. | .cleaning .. | .conclude _ | .returned _ => true
  | .evaluate (some _) =>
    s.errorCode ∈ finalErrorCodes || (s.machine.request.retried : ℤ) == w.stored.retry ||
      s.machine.failedTask.isSome
  | .retry _ => !s.machine.incrRetried.canRetry w.stored || s.machine.failedTask.isSome
  | _ => s.machine.failedTask.isSome

/-- A cancellation takes effect, and the task in flight ends after one, only where the loop cannot
take the job for completed. -/
def CancelCaught (w : Workflow) (s : JobSupervisor) : Action → Prop
  | .lifecycleEvent state _ =>
    state = cancelled → s.machine.execution.jobState.isTerminal = false → stops w s = true
  | .taskDone outcome c =>
    s.machine.execution.jobState = cancelled →
      ∀ taskType ∈ s.location.inFlight, stops w (s.taskDone w taskType outcome c) = true
  | _ => True

instance (w : Workflow) (s : JobSupervisor) : DecidablePred (CancelCaught w s) := fun a => by
  cases a <;> dsimp only [CancelCaught] <;> infer_instance

def QuietSince (effects : List Effect) : Prop :=
  ∃ after before, effects = after ++ Effect.cancelled :: before ∧ Effect.cancelled ∉ before ∧
    ∀ e ∈ after, ∃ u, u ≠ StatsUpdate.succeeded ∧ e = .recorded u

variable {effects : List Effect}

theorem QuietSince.cons {u : StatsUpdate} (h : QuietSince effects)
    (hu : u ≠ .succeeded) : QuietSince (.recorded u :: effects) := by
  obtain ⟨after, before, rfl, hb, hq⟩ := h
  refine ⟨.recorded u :: after, before, rfl, hb, ?_⟩
  simp only [List.mem_cons, forall_eq_or_imp]
  exact ⟨⟨u, hu, rfl⟩, hq⟩

theorem QuietSince.mem_after {after before : List Effect}
    (h : QuietSince (after ++ Effect.cancelled :: before)) :
    ∀ e ∈ after, ∃ u, u ≠ StatsUpdate.succeeded ∧ e = .recorded u := by
  obtain ⟨after', before', he, hb, hq⟩ := h
  have hafter' : Effect.cancelled ∉ after' := by
    intro hm
    obtain ⟨u, _, hu⟩ := hq _ hm
    simp at hu
  rcases List.append_eq_append_iff.mp he with ⟨l, rfl, hl⟩ | ⟨l, rfl, hl⟩
  · exact fun e hm => hq e (by simp [hm])
  cases l with
  | nil => simpa using hq
  | cons =>
    simp only [List.cons_append, List.cons.injEq] at hl
    exact absurd (by simp [hl.2]) hb

theorem QuietSince.lastPublished (h : QuietSince effects) :
    lastPublished effects = some cancelled := by
  obtain ⟨after, before, rfl, _, hq⟩ := h
  induction after with
  | nil => rfl
  | cons e after ih =>
    obtain ⟨u, _, rfl⟩ := hq e (by simp)
    simpa [lastPublished] using ih fun e he => hq e (by simp [he])

/-- A job that was cancelled. -/
structure Caught (w : Workflow) (s : JobSupervisor) : Prop where
  request : s.machine.request.jobState ≠ completed
  execution : s.machine.execution.jobState = cancelled
  quiet : QuietSince s.machine.effects
  stops : stops w s = true

structure Inv (w : Workflow) (s : JobSupervisor) : Prop where
  start : s.location = .start → s.machine.effects = []
  finish : s.location = .finish none → s.machine.failedTask = none
  caught : Effect.cancelled ∈ s.machine.effects → Caught w s

variable {w : Workflow} {s s' : JobSupervisor}

theorem Inv.cancellationFinal (h : Inv w s) : CancellationFinal s := by
  intro after before he
  have hc := h.caught (by simp [he])
  have hq := QuietSince.mem_after (he ▸ hc.quiet)
  refine ⟨hc.request, by simp [hc.execution], ?_, ?_, .inl hc.quiet.lastPublished⟩
  · intro hm
    obtain ⟨u, hu, hr⟩ := hq _ hm
    simp_all
  · intro hm
    obtain ⟨u, _, hr⟩ := hq _ hm
    simp at hr

theorem Inv.not_cancelled (h : Inv w s) (hexec : s.machine.execution.jobState ≠ cancelled) :
    Effect.cancelled ∉ s.machine.effects :=
  fun hm => hexec (h.caught hm).execution

theorem inv_of_not_cancelled (hl : s.location ≠ .start)
    (hf : s.location = .finish none → s.machine.failedTask = none)
    (hc : Effect.cancelled ∉ s.machine.effects) : Inv w s where
  start h := absurd h hl
  finish := hf
  caught hm := absurd hm hc

theorem Inv.frame (h : Inv w s) (hl : s'.location ≠ .start)
    (hf : s'.location = .finish none → s'.machine.failedTask = none)
    (hreq : s'.machine.request.jobState = s.machine.request.jobState)
    (hexec : s'.machine.execution.jobState = s.machine.execution.jobState)
    (heff : s'.machine.effects = s.machine.effects)
    (hstops : s.machine.execution.jobState = cancelled → stops w s = true → stops w s' = true) :
    Inv w s' where
  start hs := absurd hs hl
  finish := hf
  caught hm := by
    have hc := h.caught (heff ▸ hm)
    exact
      { request := hreq ▸ hc.request
        execution := hexec ▸ hc.execution
        quiet := heff ▸ hc.quiet
        stops := hstops hc.execution hc.stops }

variable {c : Clock}

section

variable (h : Inv w s)
include h

theorem inv_complete (hl : s.location = .finish none) {result : Option String} :
    Inv w { s with
      machine := (s.machine.executionCompleted c).1, location := .returned result } := by
  have hfail := h.finish hl
  have hc : Effect.cancelled ∉ s.machine.effects := by
    intro hm
    have hs := (h.caught hm).stops
    simp [stops, hl, hfail] at hs
  apply inv_of_not_cancelled (by simp) (by simp)
  simpa [JobStateMachine.executionCompleted, publish, report] using hc

theorem inv_restart (err : String) (c : Clock) (result : Option String) :
    Inv w { s with
      machine := (s.machine.restartJobBackToPendingPaused err c).1
      location := .returned result } where
  start hs := by cases hs
  finish hs := by cases hs
  caught hm := by
    have hc := h.caught (by simpa [restartJobBackToPendingPaused] using hm)
    constructor
    · simp [restartJobBackToPendingPaused]
    · simpa [restartJobBackToPendingPaused] using hc.execution
    · simpa [restartJobBackToPendingPaused] using hc.quiet.cons (u := .pending true) (by simp)
    · simp [stops]

theorem inv_pauseJob (c : Clock) (location : Location) (hl : location ≠ .start)
    (hf : location = .finish none → s.machine.failedTask = none)
    (hstops : stops w s = true → stops w { s with location := location } = true) :
    Inv w { s with machine := (s.machine.pauseJob c).1, location := location } := by
  by_cases hexec : s.machine.execution.jobState = executing
  · have hc := h.not_cancelled (by simp [hexec])
    apply inv_of_not_cancelled hl
    · simpa [JobStateMachine.pauseJob, hexec, JobStateMachine.publish, JobStateMachine.report,
        JobStateMachine.failedTask] using hf
    · simpa [JobStateMachine.pauseJob, hexec, JobStateMachine.publish, JobStateMachine.report]
        using hc
  · rw [JobStateMachine.pauseJob_of_not_executing _ _ hexec]
    exact h.frame hl hf rfl rfl rfl fun _ => hstops

theorem inv_conclude (err : String) (c : Clock) : Inv w (s.conclude err c) := by
  unfold conclude
  split
  · exact inv_restart h err c _
  split
  · exact inv_pauseJob h c _ (by simp) (by simp) (by simp [stops])
  split
  · exact h.frame (by simp) (by simp) rfl rfl rfl (by simp [stops])
  cases hexec : s.machine.execution.jobState.isTerminal with
  | true =>
    rw [JobStateMachine.executionFailed_of_terminal _ _ _ _ hexec]
    exact h.frame (by simp) (by simp) rfl rfl rfl (by simp [stops])
  | false =>
    have hc := h.not_cancelled fun hcanc => by
      simp [hcanc, isTerminal] at hexec
    apply inv_of_not_cancelled (by simp) (by simp)
    have hs := s.machine.failed_spec c executing false err
      (if s.errorCode = "" then ErrorCodes.jobExecute else s.errorCode)
    simpa [JobStateMachine.executionFailed, hexec, publish, report, hs.effects] using hc

theorem inv_passes (hpass : Passes w c s s') : Inv w s' := by
  cases hpass with
  | opens hl | stops hl | submits hl =>
    exact h.frame (by simp) (by simp) rfl rfl rfl (by simp [stops, hl])
  | succeeds hl hfail =>
    refine h.frame (by simp) (fun _ => hfail) rfl rfl rfl fun _ hs => ?_
    simp [stops, hl, hfail] at hs
  | @fails err _ _ hl hverd hcode =>
    refine h.frame (by simp) (by simp) rfl rfl rfl fun _ hs => ?_
    cases err <;> simp_all [stops, verdict, JobStateMachine.getFailedTaskError]
  | unasked =>
    refine h.frame (by simp) (by simp) rfl rfl rfl fun _ hs => ?_
    simp_all [stops]
  | repeats hl hcan =>
    exact h.frame (by simp) (by simp) rfl rfl rfl (by simp [stops, hl, hcan])
  | unopened | givesUp | exhausted | cleansUp | closes | skips | cleans =>
    exact h.frame (by simp) (by simp) rfl rfl rfl (by simp [stops])

theorem inv_proceed (he : s.proceed w c = some s') : Inv w s' := by
  cases proceeds_of_proceed he with
  | launches hl hset =>
    unfold JobStateMachine.setJobStatusToExecuting at hset
    split at hset <;> cases hset
    apply inv_of_not_cancelled (by simp) (by simp)
    simp [publish, report, h.start hl]
  | @unlaunched message _ hl =>
    apply inv_of_not_cancelled (by simp) (by simp)
    have hs := s.machine.failed_spec c ready false message ""
    simp [JobStateMachine.launchFailed, publish, report, hs.effects, h.start hl]
  | passes hpass => exact inv_passes h hpass
  | asks =>
    exact h.frame (by simp) (by simp) rfl rfl rfl (by simp [stops, finalErrorCodes])
  | completes hl => exact inv_complete h hl
  | concludes => exact inv_conclude h _ c

end

theorem taskDone_location (taskType : String) (outcome : TaskOutcome) (c : Clock) :
    (s.taskDone w taskType outcome c).location ≠ .start ∧
      (s.taskDone w taskType outcome c).location ≠ .finish none := by
  simp only [taskDone]
  split
  · simp
  · simp
  · split <;> simp

theorem inv_taskDone (h : Inv w s) {outcome : TaskOutcome}
    (hok : CancelCaught w s (.taskDone outcome c))
    (he : s.step w (.taskDone outcome c) = some s') : Inv w s' := by
  cases hl : s.location <;> simp only [step, hl] at he <;> cases he
  case running taskType =>
    have hsame := s.machine.submitTask_sameJob w taskType outcome c.now
    have hloc := taskDone_location (w := w) (s := s) taskType outcome c
    refine h.frame hloc.1 (fun hf => absurd hf hloc.2) ?_ ?_ ?_ fun hexec _ =>
      hok hexec taskType (by simp [hl, Location.inFlight])
    · rw [taskDone_machine, hsame.request]
    · rw [taskDone_machine, hsame.execution]
    · rw [taskDone_machine, hsame.effects]
  case cleaning taskType taskTypes err =>
    have hsame := s.machine.submitTask_sameJob w taskType outcome c.now
    exact h.frame (by simp) (by simp) (by rw [hsame.request]) (by rw [hsame.execution])
      hsame.effects (by simp [stops])

theorem stops_congr {m : JobStateMachine} (hretr : m.request.retried = s.machine.request.retried)
    (hcode : m.errorCode = s.machine.errorCode) (htasks : m.tasks = s.machine.tasks) :
    stops w { s with machine := m } = stops w s := by
  have hfail : m.failedTask = s.machine.failedTask := by
    simp only [failedTask, htasks]
  have hretry : m.incrRetried.canRetry w.stored = s.machine.incrRetried.canRetry w.stored := by
    unfold canRetry incrRetried
    rw [hretr, hcode]
  unfold stops
  rw [hfail, hretry, hretr]

theorem inv_cancelled (h : Inv w s) (hl : s.location ≠ .start) (errorCode errorMsg : String)
    (c : Clock) (hstops : s.machine.execution.jobState.isTerminal = false → stops w s = true) :
    Inv w { s with machine := (s.machine.executionCancelled errorCode errorMsg c).1 } := by
  cases hexec : s.machine.execution.jobState.isTerminal with
  | true =>
    rw [JobStateMachine.executionCancelled_of_terminal _ _ _ _ hexec]
    exact h
  | false =>
    have hs := s.machine.executionCancelled_spec c errorCode errorMsg hexec
    have hc := h.not_cancelled fun hcanc => by simp [hcanc, isTerminal] at hexec
    refine ⟨fun hstart => absurd hstart hl, fun hf => ?_, fun _ => ⟨?_, ?_, ?_, ?_⟩⟩
    · simpa [failedTask, hs.tasks, report] using h.finish hf
    · intro hdone
      have hfail := hs.request
      rw [hdone] at hfail
      simp [hasFailed] at hfail
    · simpa using hs.execution
    · exact ⟨[.recorded .failed], s.machine.effects, by simp [hs.effects, report], hc, by simp⟩
    · rw [stops_congr hs.retried hs.errorCode hs.tasks]
      exact hstops hexec

theorem inv_lifecycleEvent (h : Inv w s) {state : RequestState}
    (hok : CancelCaught w s (.lifecycleEvent state c))
    (he : s.step w (.lifecycleEvent state c) = some s') : Inv w s' := by
  simp only [step] at he
  split at he <;> cases he
  next hguard =>
  obtain ⟨hl, rfl | rfl⟩ := hguard
  · exact inv_cancelled h hl _ _ c (hok rfl)
  · exact inv_pauseJob h c s.location hl h.finish id

theorem inv_step (s : JobSupervisor) (a : Action) (s' : JobSupervisor) (h : Inv w s)
    (hok : CancelCaught w s a) (he : s.step w a = some s') : Inv w s' := by
  cases a with
  | proceed => exact inv_proceed h he
  | taskDone => exact inv_taskDone h hok he
  | lifecycleEvent => exact inv_lifecycleEvent h hok he
  | database =>
    cases he
    exact ⟨h.start, h.finish, fun hm => ⟨(h.caught hm).request, (h.caught hm).execution,
      (h.caught hm).quiet, (h.caught hm).stops⟩⟩

theorem inv_initial (s : JobSupervisor) (h : Initial s) : Inv w s where
  start _ := h.effects
  finish hf := by simp [h.location] at hf
  caught hm := by simp [h.effects] at hm

/-- In every run in which each cancellation meets a loop that cannot take the job for completed,
cancellation is final. -/
theorem cancellationFinal_of_caught
    (h : (system w).ReachableWith (CancelCaught w) s) : CancellationFinal s :=
  (h.invariant inv_initial inv_step).cancellationFinal

def cancelBetweenTasks : List Action :=
  [.proceed {}, .proceed {}, .proceed {}, .taskDone (replied completed) {},
    .lifecycleEvent cancelled {}, .proceed {}, .proceed {}, .proceed {}]

theorem completed_after_cancellation : ¬ ∀ w s, (system w).Reachable s → CancellationFinal s := by
  intro h
  obtain ⟨s, hs, he⟩ := TransitionSystem.exists_reachableWith (S := system compileAndTest)
    (fun _ _ => True)
    (fun s => s.machine.effects = [.published completed, .recorded .succeeded, .recorded .failed,
      .cancelled, .published executing]) cancelBetweenTasks initial_launched (by decide)
  have hf := h compileAndTest s hs [.published completed, .recorded .succeeded, .recorded .failed]
    [.published executing] he
  simp at hf

def cancelInFlight : List Action :=
  [.proceed {}, .proceed {}, .proceed {}, .lifecycleEvent cancelled {},
    .taskDone (replied failed) {}, .proceed {}, .proceed {}, .proceed {}, .proceed {}]

theorem cancellationFinal_cancelInFlight :
    ∃ s, (system compileAndTest).ReachableWith (CancelCaught compileAndTest) s ∧
      Effect.cancelled ∈ s.machine.effects ∧ s.location = .returned (some "") ∧
      CancellationFinal s := by
  obtain ⟨s, hs, hc, hl⟩ := TransitionSystem.exists_reachableWith (S := system compileAndTest)
    (CancelCaught compileAndTest)
    (fun s => Effect.cancelled ∈ s.machine.effects ∧ s.location = .returned (some ""))
    cancelInFlight initial_launched (by decide)
  exact ⟨s, hs, hc, hl, cancellationFinal_of_caught hs⟩

end Formicary.JobSupervisor

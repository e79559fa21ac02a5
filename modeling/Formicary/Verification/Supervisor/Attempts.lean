import Formicary.Verification.Supervisor.Outcome

/-! # The attempts at a job

How often `tryExecuteJob` runs a job that keeps failing, and the task that each attempt starts
with. -/

namespace Formicary

open RequestState JobSupervisor JobStateMachine TransitionSystem Option

/-- The stages of the retry loop. -/
inductive Stage where
  | start
  | head
  | inside
  | delay
  | over
  deriving DecidableEq

@[simp] def Location.stage : Location → Stage
  | .start => .start
  | .attempt => .head
  | .enter _ | .running _ | .approval _ | .evaluate _ => .inside
  | .retry _ => .delay
  | .finish _ | .cleanup .. | .cleaning .. | .conclude _ | .returned _ => .over

namespace JobSupervisor

def stage (s : JobSupervisor) : Stage :=
  s.location.stage

def retried (s : JobSupervisor) : ℤ :=
  s.machine.request.retried

def Unpaused : Action → Prop
  | .lifecycleEvent state _ => state ≠ paused
  | _ => True

instance : DecidablePred Unpaused := by
  rintro ⟨⟩ <;> dsimp only [Unpaused] <;> infer_instance

/-- What a step does to the variables of the retry loop. A pause that is asked for from outside
counts as a retry as well. -/
inductive Turn (w : Workflow) (action : Action) (s s' : JobSupervisor) : Prop where
  | stays (hstage : s'.stage = s.stage) (hopen : s.stage ≠ .over)
      (hretried : Unpaused action → s'.retried = s.retried) (htask : s'.task = s.task)
      (hname : s'.startTaskType = s.startTaskType)
      (hstart : s.stage = .start → s'.machine.execution = s.machine.execution)
  | launches (hs : s.stage = .start) (hs' : s'.stage = .head) (hretried : s'.retried = s.retried)
      (htask : s'.task = s.task) (hname : s'.startTaskType = s.machine.execution.currentTask)
  | opens {taskType : String} (hs : s.stage = .head) (hs' : s'.stage = .inside)
      (hretried : s'.retried = s.retried) (hfirst : s.firstTask w = .ok taskType)
      (htask : s'.task = some taskType)
  | fails (hs : s.stage = .inside) (hs' : s'.stage = .delay) (hretried : s'.retried = s.retried)
      (hne : s.retried ≠ w.stored.retry) (htask : s'.task = s.task) (hname : s'.startTaskType = "")
  | repeats (hs : s.stage = .delay) (hs' : s'.stage = .head)
      (hretried : s'.retried = s.retried + 1) (htask : s'.task = s.task)
      (hname : s'.startTaskType = s.startTaskType)
  | leaves (hs : s.stage ≠ .head) (hs' : s'.stage = .over)
      (hwhy : ∀ err, s'.location = .finish (some err) →
        s.location = .finish (some err) ∧ s'.errorCode = s.errorCode ∨
          s'.errorCode ∈ finalErrorCodes ∨
          (s.stage = .inside ∨ s.stage = .delay) ∧ w.stored.retry ≤ s.retried)

variable {w : Workflow} {s s' : JobSupervisor} {c : Clock} {action : Action}

theorem exists_firstTask (w : Workflow) (s : JobSupervisor) :
    ∃ taskType, s.firstTask w = .ok taskType := by
  obtain ⟨first, hfirst⟩ := w.stored_accepted.first
  unfold firstTask
  dsimp only
  split
  · exact ⟨_, rfl⟩
  · simp [hfirst, Except.map]

theorem turn_of_passes (h : Passes w c s s') : Turn w (.proceed c) s s' := by
  cases h with
  | opens hl hfirst => exact .opens (by simp [stage, hl]) rfl rfl hfirst rfl
  | unopened hl hfirst =>
    obtain ⟨taskType, hok⟩ := exists_firstTask w s
    cases hfirst.symm.trans hok
  | stops hl | submits hl | unasked hl =>
    apply Turn.stays <;> simp [stage, hl, retried]
  | givesUp hl _ hlast =>
    exact .leaves (by simp [stage, hl]) rfl fun _ _ =>
      .inr (hlast.imp_right fun hlast => ⟨.inl (by simp [stage, hl]), hlast.ge⟩)
  | fails hl _ _ hne => exact .fails (by simp [stage, hl]) rfl rfl hne rfl rfl
  | repeats hl =>
    exact .repeats (by simp [stage, hl]) rfl (by simp [retried, incrRetried]) rfl rfl
  | exhausted hl hcan =>
    have hover : ¬ s.retried + 1 < w.stored.retry + 1 := fun hlt => by
      simp only [retried] at hlt
      simp [canRetry, incrRetried, hlt] at hcan
    exact .leaves (by simp [stage, hl]) rfl fun _ _ =>
      .inr (.inr ⟨.inr (by simp [stage, hl]), by omega⟩)
  | closes hl => rcases hl with hl | hl <;> exact .leaves (by simp [stage, hl]) rfl (by simp)
  | succeeds hl | cleansUp hl | skips hl | cleans hl =>
    exact .leaves (by simp [stage, hl]) rfl (by simp)

theorem turn_of_proceed (he : s.proceed w c = some s') : Turn w (.proceed c) s s' := by
  cases proceeds_of_proceed he with
  | launches hl hset =>
    unfold setJobStatusToExecuting at hset
    split at hset <;> cases hset
    exact .launches (by simp [stage, hl]) rfl rfl rfl rfl
  | passes h => exact turn_of_passes h
  | asks hl => apply Turn.stays <;> simp [stage, hl, retried]
  | unlaunched hl | completes hl => exact .leaves (by simp [stage, hl]) rfl (by simp)
  | @concludes err hl =>
    obtain ⟨result, hret⟩ := s.conclude_returned err c
    exact .leaves (by simp [stage, hl]) (by simp [stage, hret]) (by simp [hret])

theorem updateFromJobLifecycleEvent_retried (m : JobStateMachine) {state : RequestState}
    (hstate : state ≠ paused) (c : Clock) :
    (m.updateFromJobLifecycleEvent state c).1.request.retried = m.request.retried := by
  unfold updateFromJobLifecycleEvent
  split
  · cases hterm : m.execution.jobState.isTerminal with
    | true => rw [executionCancelled_of_terminal _ _ _ _ hterm]
    | false => exact (m.executionCancelled_spec c _ _ hterm).retried
  · rfl

theorem Turn.outside {m : JobStateMachine}
    (hretr : Unpaused action → m.request.retried = s.machine.request.retried)
    (hstart : s.stage = .start → m.execution = s.machine.execution) :
    Turn w action s { s with machine := m } := by
  by_cases hover : s.stage = .over
  · exact .leaves (by simp [hover]) hover fun err hl => .inl ⟨hl, rfl⟩
  · exact .stays rfl hover (fun h => by simp [retried, hretr h]) rfl rfl hstart

theorem turn_of_step (he : s.step w action = some s') : Turn w action s s' := by
  cases action with
  | proceed => exact turn_of_proceed he
  | database =>
    cases he
    exact .outside (fun _ => rfl) fun _ => rfl
  | lifecycleEvent state c =>
    simp only [step] at he
    split at he <;> cases he
    next hguard =>
    refine .outside (fun h => updateFromJobLifecycleEvent_retried _ h c) fun hstart => ?_
    cases hl : s.location <;> simp_all [stage]
  | taskDone outcome c =>
    have hjob := step_taskDone_sameJob he
    cases hl : s.location with
    | running taskType =>
      simp only [step, hl, some.injEq] at he
      obtain ⟨htask, hname⟩ := taskDone_task w s taskType outcome c
      subst he
      apply Turn.stays
      · cases taskDone_afterTask w s taskType outcome c with
        | unsubmitted _ hl' | waits hl' | goesOn _ _ _ hl' | stops _ _ _ _ hl' =>
          simp [stage, hl, hl']
      · simp [stage, hl]
      · simp [retried, hjob.request]
      · exact htask
      · exact hname
      · simp [stage, hl]
    | cleaning =>
      simp only [step, hl] at he
      cases he
      exact .leaves (by simp [stage, hl]) rfl (by simp)
    | _ =>
      simp only [step, hl] at he
      cases he

end JobSupervisor

namespace Course

open Submission (startTask)

variable {w : Workflow} {s s₀ : JobSupervisor} {t t' : Course} {action : Action}

theorem log_length (he : t.supervisor.step w action = some s) :
    (t.log action).length = t.attempts.length +
      if t.supervisor.stage = .head ∧ s.stage ≠ .head then 1 else 0 := by
  cases action with
  | proceed =>
    by_cases hl : t.supervisor.location = .attempt
    · obtain ⟨taskType, hfirst⟩ := t.supervisor.exists_firstTask w
      simp only [JobSupervisor.step, JobSupervisor.proceed, hl, hfirst] at he
      cases he
      simp [log, hl, JobSupervisor.stage]
    · have hhead : t.supervisor.stage ≠ .head := by
        cases hloc : t.supervisor.location <;> simp_all [JobSupervisor.stage]
      simp [log, hl, hhead]
  | taskDone =>
    have hhead : t.supervisor.stage ≠ .head := by
      cases hloc : t.supervisor.location <;> simp_all [JobSupervisor.stage, JobSupervisor.step]
    simp only [log, hhead, false_and, if_false, Nat.add_zero]
    split
    · next hatt => simp [hatt]
    · rfl
  | lifecycleEvent =>
    simp only [JobSupervisor.step] at he
    split at he <;> cases he
    simp [log, JobSupervisor.stage]
  | database =>
    cases he
    simp [log, JobSupervisor.stage]

def Numbered (w : Workflow) (t : Course) : Prop :=
  match t.supervisor.stage with
  | .start => t.attempts.length = 0 ∧ t.supervisor.retried = 0
  | .head => t.attempts.length = t.supervisor.retried ∧ t.supervisor.retried ≤ w.stored.retry
  | .inside =>
    t.attempts.length = t.supervisor.retried + 1 ∧ t.supervisor.retried ≤ w.stored.retry
  | .delay =>
    t.attempts.length = t.supervisor.retried + 1 ∧ t.supervisor.retried < w.stored.retry
  | .over => ∀ err, t.supervisor.location = .finish (some err) →
      t.supervisor.errorCode ∈ finalErrorCodes ∨ t.attempts.length = w.stored.retry + 1

theorem Numbered.step (hretry : 0 ≤ w.stored.retry) (h : t.Numbered w)
    (hunpaused : Unpaused action) (he : t.step w action = some t') : t'.Numbered w := by
  obtain ⟨s, hs, rfl⟩ := map_eq_some_iff.mp he
  have hlen := log_length hs
  unfold Numbered at h ⊢
  cases turn_of_step hs with
  | stays hstage hopen hretr =>
    simp only [hstage, hretr hunpaused]
    cases hloc : t.supervisor.stage with
    | start | head | inside | delay => simpa [hloc, hlen, hstage] using h
    | _ => exact absurd hloc hopen
  | launches hs hs' hretr =>
    simp only [hs, hs'] at h ⊢
    simp [hlen, hs, hretr, h, hretry]
  | opens hs hs' hretr =>
    simp only [hs, hs'] at h ⊢
    simp [hlen, hs, hs', hretr, h]
  | fails hs hs' hretr | repeats hs hs' hretr =>
    simp only [hs, hs', hlen, hretr] at h ⊢
    exact ⟨by simpa using h.1, by omega⟩
  | leaves hs hs' hwhy =>
    simp only [hs', hlen, hs, false_and, if_false, Nat.add_zero]
    intro err hend
    rcases hwhy err hend with ⟨hend', hcode⟩ | hfinal | ⟨hs | hs, hlast⟩
    · simp only [stage, hend', Location.stage] at h
      exact hcode ▸ h err rfl
    · exact .inl hfinal
    · simp only [hs] at h
      exact .inr (by omega)
    · simp only [hs] at h
      omega

/-- The loop was left with an error after which the job could have been tried again. -/
def GivenUp (t : Course) : Prop :=
  (match t.supervisor.location with
    | .finish err => err.isSome
    | _ => false) = true ∧
    t.supervisor.errorCode ∉ finalErrorCodes

instance : DecidablePred GivenUp := fun _ => inferInstanceAs (Decidable (_ ∧ _))

/-- The attempt has ended, and without an error. -/
def Succeeded (t : Course) : Prop :=
  t.supervisor.location = .evaluate none ∧ t.supervisor.machine.failedTask = none

/-- The retries that the matching error code grants the job. -/
def retryJobCount (t : Course) : ℤ :=
  match t.supervisor.machine.errorCode with
  | some code => if code.action = .retryJob then code.retry else 0
  | none => 0

/-- The runs that go on from a state. -/
def onwards (w : Workflow) (t : Course) : TransitionSystem Course Action where
  init t' := t' = t
  step := step w

theorem over_of_reachable (h : (onwards w t).Reachable t') (hover : t.supervisor.stage = .over) :
    t'.supervisor.stage = .over ∧ t'.attempts.length = t.attempts.length := by
  induction h with
  | init hinit =>
    cases hinit
    exact ⟨hover, rfl⟩
  | step _ _ he ih =>
    obtain ⟨s, hs, rfl⟩ := map_eq_some_iff.mp he
    have hlen := log_length hs
    cases turn_of_step hs with
    | stays _ hopen => exact absurd ih.1 hopen
    | leaves hs hs' => exact ⟨hs', by simp [hlen, hs, ih.2]⟩
    | launches hs | opens hs | fails hs | repeats hs => simp [ih.1] at hs

/-- A job that was never paused and has given up was tried as often as its definition and the error
code of its failed task allow exactly if the code allows no more retries than the definition. An
attempt without a failed task is the last one. -/
theorem attempts_eq_iff (hinit : JobSupervisor.Initial s₀)
    (hfresh : s₀.machine.request.retried = 0) (hretry : 0 ≤ w.stored.retry)
    (h : (system w s₀).ReachableWith (fun _ a => Unpaused a) t) :
    (t.GivenUp → ((t.attempts.length : ℤ) = 1 + max w.stored.retry t.retryJobCount ↔
        t.retryJobCount ≤ w.stored.retry)) ∧
      (t.Succeeded → ∀ c t₁ t₂, t.step w (.proceed c) = some t₁ →
        (onwards w t₁).Reachable t₂ → t₂.attempts.length = t.attempts.length) := by
  have hnum : t.Numbered w := by
    refine h.invariant ?_ fun _ _ _ hinv hok he => hinv.step hretry hok he
    rintro _ rfl
    simp [Numbered, JobSupervisor.stage, JobSupervisor.retried, hinit.location, hfresh]
  constructor
  · rintro ⟨hend, hcode⟩
    split at hend
    · next err hl =>
      obtain ⟨err, rfl⟩ := isSome_iff_exists.mp hend
      simp only [Numbered, JobSupervisor.stage, hl, Location.stage] at hnum
      have hlen := (hnum err rfl).resolve_left hcode
      omega
    · cases hend
  · rintro ⟨hl, hfail⟩ c t₁ t₂ he hreach
    simp only [step, JobSupervisor.step, JobSupervisor.proceed, hl, getFailedTaskError, hfail] at he
    cases he
    simpa [log, hl] using (over_of_reachable hreach rfl).2

def failedOnce : TaskOutcome where
  run := .started (.invoked [.response ⟨failed, "1", "", "", "boom", some ⟨"E1", .retryJob, 1⟩⟩] "")

def compileTwice : Workflow :=
  .ofDeclared { jobOf [shellTask "compile" "test",
    shellTask "test" ""] with retry := 1 } (by decide)

def failedAttempt : List Action :=
  [.proceed {}, .proceed {}, .proceed {}, .taskDone (replied failed) {}, .proceed {}, .proceed {}]

theorem attempts_compile : ∃ t : Course, t.GivenUp ∧ t.attempts.length = 2 ∧
    (t.attempts.length : ℤ) = 1 + max compileTwice.stored.retry t.retryJobCount := by
  obtain ⟨t, h, hgiven, htwo, hcount⟩ := exists_reachableWith
    (S := system compileTwice launched) (fun _ a => Unpaused a)
    (fun t => t.GivenUp ∧ t.attempts.length = 2 ∧ t.retryJobCount ≤ compileTwice.stored.retry)
    (failedAttempt ++ [.proceed {}, .proceed {}, .taskDone (replied failed) {}, .proceed {}]) rfl
    (by decide)
  exact ⟨t, hgiven, htwo,
    ((attempts_eq_iff initial_launched rfl (by decide) h).1 hgiven).mpr hcount⟩

theorem retry_code_unused : ∃ t : Course,
    (system compileAndTest launched).ReachableWith (fun _ a => Unpaused a) t ∧
      t.GivenUp ∧ t.retryJobCount = 1 ∧ t.attempts.length = 1 :=
  exists_reachableWith (S := system compileAndTest launched) (fun _ a => Unpaused a) _
    [.proceed {}, .proceed {}, .proceed {}, .taskDone failedOnce {}, .proceed {}] rfl (by decide)

def StartKept (w : Workflow) (s₀ s : JobSupervisor) : Prop :=
  match s.stage with
  | .start => s.task = s₀.task ∧ s.machine.execution.currentTask = s₀.machine.execution.currentTask
  | .head => s.firstTask w = startTask w s₀
  | .inside => Begun w s₀ s
  | .delay => Begun w s₀ s ∧ s.startTaskType = ""
  | .over => True

theorem StartKept.step (h : StartKept w s₀ s) {s' : JobSupervisor}
    (he : s.step w action = some s') : StartKept w s₀ s' := by
  unfold StartKept at h ⊢
  cases turn_of_step he with
  | stays hstage hopen _ htask hname hstart =>
    rw [hstage]
    cases hs : s.stage with
    | start => simpa [hs, htask, hstart hs] using h
    | head => simpa [hs, firstTask, htask, hname] using h
    | inside => simpa [hs, Begun, htask] using h
    | delay => simpa [hs, Begun, htask, hname] using h
    | _ => exact absurd hs hopen
  | launches hs hs' _ htask hname =>
    simp only [hs] at h
    simp [hs', startTask, firstTask, htask, hname, h]
  | opens hs hs' _ hfirst htask =>
    simp only [hs, hfirst] at h
    simp [hs', Begun, htask, h]
  | fails hs hs' _ _ htask hname =>
    simp only [hs] at h
    simpa [hs', Begun, htask, hname] using h
  | repeats hs hs' _ htask hname =>
    simp only [hs] at h
    obtain ⟨⟨taskType, hkept, hstart⟩, hempty⟩ := h
    simp [hs', firstTask, htask, hname, hempty, hkept, hstart]
  | leaves _ hs' => simp [hs']

theorem startKept_of_reachable (hinit : JobSupervisor.Initial s₀)
    (h : (system w s₀).Reachable t) : StartKept w s₀ t.supervisor := by
  induction h with
  | init hs =>
    cases hs
    simp [StartKept, stage, hinit.location]
  | step _ _ he ih =>
    obtain ⟨s, hs, rfl⟩ := map_eq_some_iff.mp he
    exact ih.step hs

theorem startTask_eq (hinit : JobSupervisor.Initial s₀) {first : TaskDefinition}
    (hfirst : w.stored.getFirstTask = .ok first) :
    startTask w s₀ = .ok ((w.stored.getTask s₀.machine.execution.currentTask).elim first.taskType
      TaskDefinition.taskType) := by
  have hempty : w.stored.getTask "" = none := by
    cases hfound : w.stored.getTask "" with
    | none => rfl
    | some td =>
      obtain ⟨hmem, hname⟩ := JobDefinition.getTask_eq_some hfound
      exact absurd hname (w.stored_accepted.names td hmem)
  unfold startTask firstTask
  by_cases hcur : s₀.machine.execution.currentTask = ""
  · simp [hcur, hempty, hinit.task, hfirst, Except.map]
  · cases w.stored.getTask s₀.machine.execution.currentTask <;> simp [hcur, hfirst, Except.map]

/-- A resumed job that is tried again is resumed again, as far as its definition has the task. -/
theorem starts_over_iff (hinit : JobSupervisor.Initial s₀) {first : TaskDefinition}
    (hfirst : w.stored.getFirstTask = .ok first) (h : (system w s₀).Reachable t)
    (hl : t.supervisor.location = .attempt) (c : Clock) :
    (t.supervisor.proceed w c).map location = some (.enter first.taskType) ↔
      ∀ td, w.stored.getTask s₀.machine.execution.currentTask = some td →
        td.taskType = first.taskType := by
  have hkept := startKept_of_reachable hinit h
  simp only [StartKept, stage, hl, Location.stage, startTask_eq hinit hfirst] at hkept
  simp only [proceed, hl, hkept, map_some, some.injEq, Location.enter.injEq]
  cases w.stored.getTask s₀.machine.execution.currentTask <;> simp

/-- A launched job whose execution is to be resumed at its second task. -/
def resumed : JobSupervisor :=
  { launched with
    machine := { launched.machine with
      execution := { launched.machine.execution with currentTask := "test" } } }

theorem compile_starts_over : ∃ first, compileTwice.stored.getFirstTask = .ok first ∧
    ∃ t : Course, t.attempts.length = 1 ∧ (t.supervisor.proceed compileTwice {}).map location =
        some (.enter first.taskType) := by
  obtain ⟨first, hfirst⟩ := compileTwice.stored_accepted.first
  obtain ⟨t, h, hl, hatt⟩ := exists_reachableWith
    (S := system compileTwice launched) (fun _ _ => True)
    (fun t => t.supervisor.location = .attempt ∧ t.attempts.length = 1) failedAttempt rfl
    (by decide)
  exact ⟨first, hfirst, t, hatt, (starts_over_iff initial_launched hfirst h hl {}).mpr nofun⟩

theorem test_resumed_again : ∃ t : Course, (system compileTwice resumed).Reachable t ∧
    t.attempts.length = 1 ∧ t.supervisor.location = .attempt ∧
      (t.supervisor.proceed compileTwice {}).map location = some (.enter "test") ∧
      compileTwice.stored.getFirstTask.toOption.map TaskDefinition.taskType = some "compile" :=
  exists_reachableWith (S := system compileTwice resumed) (fun _ _ => True) _ failedAttempt rfl
    (by decide)

end Course

end Formicary

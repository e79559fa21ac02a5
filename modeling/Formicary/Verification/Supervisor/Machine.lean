import Formicary.Model.JobSupervisor
import Formicary.Verification.Execution.Statements

/-! # What the operations of the job state machine do

Each operation by the states it leaves in memory, the tasks it keeps and the effects it logs. -/

namespace Formicary.JobStateMachine

open RequestState

variable (m : JobStateMachine) (c : Clock)

@[simp] theorem incrRetried_failedTask : m.incrRetried.failedTask = m.failedTask := rfl

section Manager

variable (result : Except Error Database)

@[simp] theorem save_fields :
    (m.save result).1.request = m.request ∧ (m.save result).1.execution = m.execution ∧
      (m.save result).1.tasks = m.tasks ∧ (m.save result).1.errorCode = m.errorCode ∧
      (m.save result).1.effects = m.effects := by
  cases result <;> exact ⟨rfl, rfl, rfl, rfl, rfl⟩

variable (oldState newState : RequestState) (delay : Time)

@[simp] theorem finalize_fields : (m.finalize oldState delay c).1.request = m.request ∧
      (m.finalize oldState delay c).1.execution = m.execution ∧
      (m.finalize oldState delay c).1.effects =
        .recorded (finalizeStats m.request.jobState) :: m.effects ∧
      (m.finalize oldState delay c).1.tasks = m.tasks ∧
      (m.finalize oldState delay c).1.errorCode = m.errorCode := by
  simp [finalize, report]

variable (errorMessage errorCode : String) (retried : ℕ) (reverted : Bool)

@[simp] theorem updateJobRequestState_fields :
    let m' := (m.updateJobRequestState oldState newState errorMessage errorCode delay retried
      reverted c).1
    m'.effects = (if newState = pending then .recorded (.pending reverted) :: m.effects
      else m.effects) ∧
      m'.request = m.request ∧ m'.execution = m.execution ∧ m'.tasks = m.tasks ∧
      m'.errorCode = m.errorCode := by
  simp only [updateJobRequestState, report]
  split <;> simp

end Manager

/-- What `failed` leaves behind, whether or not the rows could be finalized. -/
structure FailedSpec (m m' : JobStateMachine) (cancelled : Bool) : Prop where
  request : m'.request.jobState.hasFailed = true
  retried : m'.request.retried = m.request.retried
  errorCode : m'.errorCode = m.errorCode
  execution : m'.execution.jobState = if cancelled then RequestState.cancelled else .failed
  tasks : m'.tasks = m.tasks
  effects : m'.effects = .recorded .failed :: m.effects

theorem failed_spec (oldState : RequestState) (cancelled : Bool) (err errorCode : String) :
    FailedSpec m (m.failed oldState cancelled err errorCode c).1 cancelled := by
  unfold failed
  dsimp only
  split
  · constructor <;> simp [markFailed, failedState, finalizeStats, hasFailed]
  · cases cancelled <;> constructor <;> simp [markFailed, failedState, finalizeStats, hasFailed]

section

variable (errorCode errorMsg : String)

theorem executionCancelled_of_terminal (h : m.execution.jobState.isTerminal = true) :
    (m.executionCancelled errorCode errorMsg c).1 = m := by
  simp [executionCancelled, h]

theorem executionCancelled_spec (h : m.execution.jobState.isTerminal = false) :
    FailedSpec (m.report .cancelled) (m.executionCancelled errorCode errorMsg c).1 true := by
  simpa [executionCancelled, h] using failed_spec (m.report .cancelled) c executing true errorMsg _

theorem executionFailed_of_terminal (h : m.execution.jobState.isTerminal = true) :
    (m.executionFailed errorCode errorMsg c).1 = m := by
  simp [executionFailed, h]

end

theorem pauseJob_of_not_executing (h : m.execution.jobState ≠ executing) :
    (m.pauseJob c).1 = m := by
  simp [pauseJob, h]

/-- An operation that ends or pauses a job finalizes both its rows, or moves the request alone, or
writes nothing. -/
inductive Ends (db : Database) (requestID executionID : String) (old : RequestState)
    (db' : Database) : Prop
  | same (h : db' = db)
  | both {new : RequestState} {key : String} (hnew : new.canFinalize = true)
    (h : MovesBoth executionID old new key db db')
  | alone {new : RequestState} {key : String} (hnew : new.isTerminal = true)
    (h : UpdatesState requestID old new key db db')

structure Closes (old : RequestState) (m m' : JobStateMachine) : Prop where
  request : m'.request.id = m.request.id
  execution : m'.execution.id = m.execution.id
  rows : Ends m.db m.request.id m.execution.id old m'.db

section Closes

variable {m c} {m' : JobStateMachine} {old : RequestState}

theorem closes_of_db (hreq : m'.request.id = m.request.id)
    (hex : m'.execution.id = m.execution.id) (hdb : m'.db = m.db) : Closes old m m' :=
  ⟨hreq, hex, .same hdb⟩

theorem Closes.publish (h : Closes old m m') : Closes old m m'.publish :=
  { h with }

theorem finalize_closes (old : RequestState) (delay : Time) :
    Closes old m (m.finalize old delay c).1 ∧
      ((m.finalize old delay c).2 ≠ none → (m.finalize old delay c).1.db = m.db) := by
  unfold finalize
  cases hres : JobExecutionRepository.finalizeJobRequestAndExecutionState m.db m.execution.id old
      m.execution.jobState m.execution.errorMessage m.execution.errorCode c.cpuSecs delay
      m.request.retried m.request.pausedCount c.userKey c.now with
  | ok =>
    obtain ⟨hnew, hmoves⟩ := finalize_movesBoth hres
    exact ⟨⟨rfl, rfl, .both hnew hmoves⟩, fun h => absurd rfl h⟩
  | error => exact ⟨closes_of_db rfl rfl rfl, fun _ => rfl⟩

theorem updateJobRequestState_closes (old : RequestState) {new : RequestState}
    (hnew : new.isTerminal = true) (errorMessage errorCode : String) (delay : Time) (retried : ℕ)
    (reverted : Bool) :
    Closes old m
      (m.updateJobRequestState old new errorMessage errorCode delay retried reverted c).1 := by
  refine ⟨by simp, by simp, ?_⟩
  unfold updateJobRequestState
  have hne : new ≠ pending := by
    rintro rfl
    cases hnew
  cases hres : JobRequestRepository.updateJobState m.db m.request.id (some old) new
      errorMessage errorCode delay retried m.request.pausedCount c.userKey c.now with
  | ok => simpa [save, hne] using Ends.alone hnew (updateJobState_updates hres)
  | error => simpa [save, hne] using Ends.same rfl

theorem Ends.of_eq {db db₀ db' : Database} {r r₀ e e₀ : String} (h : Ends db r e old db')
    (hdb : db = db₀) (hr : r = r₀) (he : e = e₀) : Ends db₀ r₀ e₀ old db' := by
  subst hdb hr he
  exact h

theorem failed_closes (old : RequestState) (cancelled : Bool) (err errorCode : String) :
    Closes old m (m.failed old cancelled err errorCode c).1 := by
  obtain ⟨hfinal, href⟩ := finalize_closes (m := m.markFailed cancelled err errorCode c.now)
    (c := c) old c.delay
  unfold failed
  generalize (m.markFailed cancelled err errorCode c.now).finalize old c.delay c = result at *
  obtain ⟨m', saveErr⟩ := result
  cases saveErr with
  | none => exact { hfinal with }
  | some =>
    -- nothing was written, and the second statement is about the request alone
    have hdb : m'.db = m.db := href (by simp)
    have h := updateJobRequestState_closes (c := c)
      (m := { m' with request := { m'.request with jobState := failedState cancelled } }) old
      (show (failedState cancelled).isTerminal = true by cases cancelled <;> rfl) err
      (failedCode cancelled errorCode) c.delay 0 false
    exact ⟨h.request.trans hfinal.request, h.execution.trans hfinal.execution,
      h.rows.of_eq hdb hfinal.request hfinal.execution⟩

theorem launchFailed_closes (err : String) : Closes ready m (m.launchFailed err c).1 :=
  (failed_closes ready false err "").publish

theorem executionCompleted_closes : Closes executing m (m.executionCompleted c).1 := by
  have h := (finalize_closes (c := c) (m := { m with
    request := { m.request with jobState := completed }
    execution := { m.execution with
      jobState := completed, errorCode := "", errorMessage := "", endedAt := some c.now } })
    executing 0).1
  exact { h with }

theorem executionFailed_closes (errorCode errorMsg : String) :
    Closes executing m (m.executionFailed errorCode errorMsg c).1 := by
  unfold executionFailed
  split
  · exact closes_of_db rfl rfl rfl
  · exact (failed_closes executing false errorMsg _).publish

theorem executionCancelled_closes (errorCode errorMsg : String) :
    Closes executing m (m.executionCancelled errorCode errorMsg c).1 := by
  unfold executionCancelled
  split
  · exact closes_of_db rfl rfl rfl
  have h := failed_closes (m := m.report .cancelled) (c := c) executing true errorMsg
    (if errorCode = "" then ErrorCodes.jobCancelled else errorCode)
  exact { h with }

theorem pauseJob_closes : Closes executing m (m.pauseJob c).1 := by
  unfold pauseJob
  split
  · have h := (finalize_closes (c := c) (m := { m with
      request := { m.request with
        jobState := paused, pausedCount := m.request.pausedCount + 1,
        retried := m.request.retried + 1 }
      execution := { m.execution with
        jobState := paused, errorCode := ErrorCodes.pauseJob, endedAt := some c.now } })
      executing c.delay).1
    exact { h with }
  · exact closes_of_db rfl rfl rfl

theorem updateFromJobLifecycleEvent_closes (state : RequestState) :
    Closes executing m (m.updateFromJobLifecycleEvent state c).1 := by
  unfold updateFromJobLifecycleEvent
  split
  · exact executionCancelled_closes _ _
  split
  · exact pauseJob_closes
  · exact closes_of_db rfl rfl rfl

end Closes

/-- Submitting a task touches the tasks and the remembered error code only. -/
structure SameJob (m m' : JobStateMachine) : Prop where
  db : m'.db = m.db
  request : m'.request = m.request
  execution : m'.execution = m.execution
  effects : m'.effects = m.effects

theorem SameJob.refl : SameJob m m := ⟨rfl, rfl, rfl, rfl⟩

theorem addTask_sameJob (task : TaskExecution) : SameJob m (m.addTask task) := by
  unfold addTask
  split <;> constructor <;> rfl

theorem runTask_sameJob (taskType : String) (td : TaskDefinition) (outcome : TaskOutcome)
    (now : Time) : SameJob m (m.runTask taskType td outcome now).machine := by
  unfold runTask
  split
  · exact m.addTask_sameJob _
  have h := m.addTask_sameJob (TaskSupervisor.execute td
    ⟨m.newTaskExecution td outcome.id now, m.errorCode, none, taskType⟩ outcome.run now).task
  exact { h with }

theorem submitTask_sameJob (w : Workflow) (taskType : String) (outcome : TaskOutcome)
    (now : Time) : SameJob m (m.submitTask w taskType outcome now).machine := by
  unfold submitTask
  split
  · exact SameJob.refl m
  · exact SameJob.refl m
  split
  · exact m.runTask_sameJob _ _ _ _
  next old _ =>
  split
  · exact SameJob.refl m
  split
  · exact ⟨rfl, rfl, rfl, rfl⟩
  have h := runTask_sameJob { m with tasks := m.tasks.eraseP fun t => t.id == old.id } taskType
  exact ⟨(h _ _ _).db, (h _ _ _).request, (h _ _ _).execution, (h _ _ _).effects⟩

end Formicary.JobStateMachine

namespace Formicary.JobSupervisor

open RequestState

variable {w : Workflow} {s : JobSupervisor}

theorem taskDone_machine (taskType : String) (outcome : TaskOutcome) (c : Clock) :
    (s.taskDone w taskType outcome c).machine =
      (s.machine.submitTask w taskType outcome c.now).machine := by
  simp only [taskDone]
  split
  · rfl
  · rfl
  · split <;> rfl

theorem step_taskDone_sameJob {s' : JobSupervisor} {outcome : TaskOutcome} {c : Clock}
    (h : s.step w (.taskDone outcome c) = some s') :
    JobStateMachine.SameJob s.machine s'.machine := by
  simp only [step] at h
  split at h
  · cases h
    rw [taskDone_machine]
    exact s.machine.submitTask_sameJob w _ outcome c.now
  · cases h
    exact s.machine.submitTask_sameJob w _ outcome c.now
  · cases h

theorem taskDone_enter_iff {taskType next : String} {outcome : TaskOutcome} {c : Clock} :
    (s.taskDone w taskType outcome c).location = .enter next ↔
      (s.machine.submitTask w taskType outcome c.now).err = none ∧
        ∃ td te, (s.machine.submitTask w taskType outcome c.now).task = some (td, te) ∧
          Routing.of w.stored taskType td te = .next next := by
  simp only [taskDone]
  split
  · next herr => simp [herr]
  · next herr htask => simp [htask]
  next td te herr htask =>
  simp only [herr, htask, Option.some.injEq, Prod.mk.injEq, true_and]
  constructor
  · intro h
    refine ⟨td, te, ⟨rfl, rfl⟩, ?_⟩
    split at h
    · cases h
    · next hof =>
      cases h
      exact hof
    · cases h
  · rintro ⟨_, _, ⟨rfl, rfl⟩, hof⟩
    rw [hof]

def verdict (s : JobSupervisor) : Option String → String × Option String
  | none => s.machine.getFailedTaskError
  | some err => (s.errorCode, some err)

/-- A step of `tryExecuteJob` between its statements. -/
inductive Passes (w : Workflow) (c : Clock) (s : JobSupervisor) : JobSupervisor → Prop where
  | opens {taskType : String} (hl : s.location = .attempt) (hfirst : s.firstTask w = .ok taskType) :
      Passes w c s { s with task := some taskType, location := .enter taskType }
  | unopened {err : Error} (hl : s.location = .attempt) (hfirst : s.firstTask w = .error err) :
      Passes w c s { s with location := .finish (some err.message) }
  | stops {taskType : String} (hl : s.location = .enter taskType)
      (hended : s.machine.execution.jobState.isTerminal = true) :
      Passes w c s { s with errorCode := "", location := .evaluate none }
  | submits {taskType : String} (hl : s.location = .enter taskType)
      (hlive : s.machine.execution.jobState.isTerminal = false) :
      Passes w c s { s with location := .running taskType }
  | succeeds {code : String} (hl : s.location = .evaluate none)
      (hfailed : s.machine.failedTask = none) :
      Passes w c s { s with errorCode := code, location := .finish none }
  | givesUp {err : Option String} {code message : String} (hl : s.location = .evaluate err)
      (hverdict : s.verdict err = (code, some message))
      (hlast : code ∈ finalErrorCodes ∨ (s.machine.request.retried : ℤ) = w.stored.retry) :
      Passes w c s { s with errorCode := code, location := .finish (some message) }
  | fails {err : Option String} {code message : String} (hl : s.location = .evaluate err)
      (hverdict : s.verdict err = (code, some message)) (hcode : code ∉ finalErrorCodes)
      (hne : (s.machine.request.retried : ℤ) ≠ w.stored.retry) :
      Passes w c s { s with errorCode := code, startTaskType := "", location := .retry message }
  | unasked {taskType message : String} {err : Error} (hl : s.location = .approval taskType)
      (hdb : JobExecutionRepository.updateJobRequestAndExecutionState s.machine.db
        s.machine.execution.id executing manualApprovalRequired taskType c.now = .error err) :
      Passes w c s { s with location := .evaluate (some message) }
  | repeats {err : String} (hl : s.location = .retry err)
      (hcan : s.machine.incrRetried.canRetry w.stored = true) :
      Passes w c s { s with machine := s.machine.incrRetried, location := .attempt }
  | exhausted {err : String} (hl : s.location = .retry err)
      (hcan : s.machine.incrRetried.canRetry w.stored = false) :
      Passes w c s { s with machine := s.machine.incrRetried, location := .finish (some err) }
  | cleansUp {taskTypes : List String} {err : String} (hl : s.location = .finish (some err))
      (hended : s.machine.request.jobState.isTerminal = true) :
      Passes w c s { s with location := .cleanup taskTypes err }
  | closes {err : String}
      (hl : s.location = .finish (some err) ∨ s.location = .cleanup [] err) :
      Passes w c s { s with location := .conclude err }
  | skips {taskType : String} {taskTypes : List String} {err : String}
      (hl : s.location = .cleanup (taskType :: taskTypes) err) :
      Passes w c s { s with location := .cleanup taskTypes err }
  | cleans {taskType : String} {taskTypes : List String} {err : String}
      (hl : s.location = .cleanup (taskType :: taskTypes) err) :
      Passes w c s { s with location := .cleaning taskType taskTypes err }

/-- What `proceed` does, by the branch that it takes. -/
inductive Proceeds (w : Workflow) (c : Clock) (s : JobSupervisor) : JobSupervisor → Prop where
  | launches {m : JobStateMachine} (hl : s.location = .start)
      (hset : s.machine.setJobStatusToExecuting c = (m, none)) :
      Proceeds w c s { s with
        machine := m, startTaskType := m.execution.currentTask, location := .attempt }
  | unlaunched {message : String} {result : Option String} (hl : s.location = .start) :
      Proceeds w c s { s with
        machine := (s.machine.launchFailed message c).1, location := .returned result }
  | passes {s' : JobSupervisor} (h : Passes w c s s') : Proceeds w c s s'
  | asks {taskType : String} {db : Database} (hl : s.location = .approval taskType)
      (hdb : JobExecutionRepository.updateJobRequestAndExecutionState s.machine.db
        s.machine.execution.id executing manualApprovalRequired taskType c.now = .ok db) :
      Proceeds w c s { s with
        machine := { s.machine with db := db }
        errorCode := ErrorCodes.manualApprovalRequired
        location := .evaluate (some ("job paused for manual approval of task: " ++ taskType)) }
  | completes {result : Option String} (hl : s.location = .finish none) :
      Proceeds w c s { s with
        machine := (s.machine.executionCompleted c).1, location := .returned result }
  | concludes {err : String} (hl : s.location = .conclude err) :
      Proceeds w c s (s.conclude err c)

variable {s' : JobSupervisor} {c : Clock}

theorem passes_of_evaluate {err : Option String} (hl : s.location = .evaluate err)
    (h : s.proceed w c = some s') : Passes w c s s' := by
  cases err with
  | none =>
    cases hfail : s.machine.failedTask with
    | none =>
      simp only [proceed, hl, JobStateMachine.getFailedTaskError, hfail] at h
      cases h
      exact .succeeds hl hfail
    | some te =>
      have hverd : s.verdict none = (te.errorCode, some te.errorMessage) := by
        simp [verdict, JobStateMachine.getFailedTaskError, hfail]
      simp only [proceed, hl, JobStateMachine.getFailedTaskError, hfail] at h
      split at h <;> cases h
      · next hlast => exact .givesUp hl hverd hlast
      · next hlast => exact .fails hl hverd (fun h => hlast (.inl h)) fun h => hlast (.inr h)
  | some =>
    simp only [proceed, hl] at h
    split at h <;> cases h
    · next hlast => exact .givesUp hl rfl hlast
    · next hlast => exact .fails hl rfl (fun h => hlast (.inl h)) fun h => hlast (.inr h)

theorem Passes.machine (h : Passes w c s s') :
    s'.machine = s.machine ∨ s'.machine = s.machine.incrRetried := by
  cases h with
  | repeats | exhausted => exact .inr rfl
  | _ => exact .inl rfl

theorem proceeds_of_proceed (h : s.proceed w c = some s') : Proceeds w c s s' := by
  unfold proceed at h
  split at h
  · next hl =>
    split at h <;> cases h
    · next hset => exact .launches hl hset
    next m err hset =>
    have hm : m = s.machine := by
      unfold JobStateMachine.setJobStatusToExecuting at hset
      split at hset <;> cases hset
      rfl
    rw [hm]
    exact .unlaunched hl
  · next hl =>
    split at h <;> cases h
    · next hfirst => exact .passes (.opens hl hfirst)
    · next hfirst => exact .passes (.unopened hl hfirst)
  · next hl =>
    split at h <;> cases h
    · next hended => exact .passes (.stops hl hended)
    · next hlive => exact .passes (.submits hl (Bool.eq_false_iff.mpr hlive))
  · next hl =>
    split at h <;> cases h
    · next hdb => exact .asks hl hdb
    · next hdb => exact .passes (.unasked hl hdb)
  · next hl => exact .passes (passes_of_evaluate (c := c) hl (by simpa only [proceed, hl] using h))
  · next hl =>
    cases h
    cases hcan : s.machine.incrRetried.canRetry w.stored with
    | true => exact .passes (.repeats hl hcan)
    | false => exact .passes (.exhausted hl hcan)
  · next hl =>
    cases h
    exact .completes hl
  · next hl =>
    split at h <;> cases h
    · next hended => exact .passes (.cleansUp hl hended)
    · exact .passes (.closes (.inl hl))
  · next hl =>
    cases h
    exact .passes (.closes (.inr hl))
  · next hl =>
    split at h <;> cases h
    · exact .passes (.skips hl)
    · exact .passes (.cleans hl)
  · next hl =>
    cases h
    exact .concludes hl
  · cases h
  · cases h
  · cases h

end Formicary.JobSupervisor

/-! ## A sample job

A definition, a launched request and replies of ants, for the runs on which the results about the
supervisor are shown. -/

namespace Formicary.JobSupervisor

open RequestState

def shellTask (taskType onCompleted : String) : TaskDefinition where
  taskType := taskType
  method := .shell
  onExitCode := ∅
  onCompleted := onCompleted

def jobOf (tasks : List TaskDefinition) : JobDefinition where
  jobType := "build"
  rawYaml := "job_type: build"
  maxConcurrency := 1
  tasks := tasks

def compileAndTest : Workflow :=
  .ofDeclared (jobOf [shellTask "compile" "test", shellTask "test" ""]) (by decide)

def readyRequest : JobRequest where
  id := "r1"
  jobType := "build"
  userID := "u1"
  jobDefinitionID := "d1"
  jobState := ready
  jobExecutionID := some "e1"
  userKey := "k1"

/-- A supervisor about to run a request that the scheduler has made ready. -/
def launched : JobSupervisor where
  machine :=
    { db := { Database.empty with
        requests := ⟨[readyRequest], by decide⟩
        executions := ⟨[JobExecutionRepository.newJobExecution readyRequest "e1" 0], by decide⟩ }
      request := readyRequest
      execution := JobExecutionRepository.newJobExecution readyRequest "e1" 0
      tasks := []
      errorCode := none
      effects := [] }
  startTaskType := ""
  task := none
  errorCode := ""
  location := .start

theorem initial_launched : Initial launched := by
  constructor <;> rfl

def replied (status : RequestState) : TaskOutcome where
  run := .started (.invoked [.response ⟨status, "0", "", "", "", none⟩] "")

def completeBoth : List Action :=
  [.proceed {}, .proceed {}, .proceed {}, .taskDone (replied completed) {}, .proceed {},
    .taskDone (replied completed) {}, .proceed {}, .proceed {}]

end Formicary.JobSupervisor

import Formicary.Verification.Supervisor.Settlement

/-! # A pause and the loop that goes on

The PAUSED event of the pause API saves the rows of the job as PAUSED and cancels the context of its
loop, but the loop still runs to its end. -/

namespace Formicary

open RequestState JobStateMachine Location Option List

def Effect.harmless : Effect → Bool
  | .recorded update => update != .failed && update != .succeeded
  | .published state => !state.isTerminal
  | .cancelled => true

namespace JobSupervisor

variable (w : Workflow) (s : JobSupervisor)

/-- `PauseJob` has set the job to PAUSED, in memory and in both rows. -/
structure PausePersisted : Prop where
  location : s.location ≠ .start
  memory : s.machine.execution.jobState = paused
  request : s.machine.request.jobState = paused
  requestRow : ∃ r, s.machine.db.requests.find? s.machine.request.id = some r ∧ r.jobState = paused
  executionRow : ∃ e, s.machine.db.executions.find? s.machine.execution.id = some e ∧
    e.jobState = paused

/-- The loop is left to itself: no other event than that of the pause is delivered, and nobody else
writes the rows of the job. -/
def Undisturbed : Action → Prop
  | .lifecycleEvent state _ => state = paused
  | .database db =>
    db.requests.find? s.machine.request.id = s.machine.db.requests.find? s.machine.request.id ∧
      db.executions.find? s.machine.execution.id =
        s.machine.db.executions.find? s.machine.execution.id
  | _ => True

instance : DecidablePred s.Undisturbed := by
  rintro ⟨⟩ <;> dsimp only [Undisturbed] <;> infer_instance

def pausedSystem : TransitionSystem JobSupervisor Action where
  init := PausePersisted
  step s action := if s.Undisturbed action then s.step w action else none

/-- Both rows are as the pause has left them, and nothing was reported since that a paused job must
not report. -/
structure Respects (s₁ s : JobSupervisor) : Prop where
  requestRow : s.machine.db.requests.find? s₁.machine.request.id =
    s₁.machine.db.requests.find? s₁.machine.request.id
  executionRow : s.machine.db.executions.find? s₁.machine.execution.id =
    s₁.machine.db.executions.find? s₁.machine.execution.id
  reported : ∃ since, s.machine.effects = since ++ s₁.machine.effects ∧
    ∀ effect ∈ since, effect.harmless = true

/-- The loop does not come to its end with success, nor with an error whose code asks for none of a
restart, a pause and an approval. -/
def Yields (s : JobSupervisor) : Action → Prop
  | .proceed _ =>
    s.location ≠ .finish none ∧ ∀ err ∈ s.location.concluding, s.errorCode ∈
        [ErrorCodes.restartJob, ErrorCodes.pauseJob, ErrorCodes.manualApprovalRequired]
  | _ => True

instance : DecidablePred s.Yields := by
  rintro ⟨⟩ <;> dsimp only [Yields] <;> infer_instance

end JobSupervisor

section Refused

variable {db : Database} {id : String} {e : JobExecution}

theorem JobExecutionRepository.updateBoth_of_execution {old new : RequestState}
    {setRequest : JobRequest → JobRequest} {hreq : ∀ r, (setRequest r).id = r.id}
    {setExecution : JobExecution → JobExecution} {hexec : ∀ x, (setExecution x).id = x.id}
    {msg : String} (he : db.executions.find? id = some e)
    (hstate : e.jobState ≠ old) :
    ∃ err, updateBoth db id old new setRequest hreq setExecution hexec msg = .error err := by
  have hnone : db.executions.updateOne?
      (fun e => e.id == id && e.jobState == old && !terminalStates.contains e.jobState)
      setExecution hexec = none := by
    refine Table.updateOne?_eq_none fun x hx => ?_
    obtain ⟨hmem, hid⟩ := Table.find?_eq_some_iff.mp he
    by_cases hxid : x.id = id
    · rw [Table.eq_of_key_eq hx hmem (hxid.trans hid.symm)]
      simp [hstate]
    · simp [hxid]
  unfold updateBoth
  split
  · exact ⟨_, rfl⟩
  rw [hnone]
  exact ⟨_, rfl⟩

theorem JobExecutionRepository.update_of_execution
    (he : db.executions.find? id = some e) (old new : RequestState) (hstate : e.jobState ≠ old)
    (currentTask : String) (now : Time) :
    ∃ err, updateJobRequestAndExecutionState db id old new currentTask now = .error err := by
  unfold updateJobRequestAndExecutionState
  split
  · exact ⟨_, rfl⟩
  · exact updateBoth_of_execution he hstate

end Refused

namespace JobSupervisor

variable {w : Workflow} {s s₁ s' : JobSupervisor} {c : Clock}

/-- The paused job while the pause is respected. -/
structure StaysPaused (s₁ s : JobSupervisor) : Prop where
  location : s.location ≠ .start
  memory : s.machine.execution.jobState = paused
  request : s.location.isReturned = false → s.machine.request.jobState = paused
  requestID : s.machine.request.id = s₁.machine.request.id
  executionID : s.machine.execution.id = s₁.machine.execution.id
  respects : Respects s₁ s

theorem PausePersisted.staysPaused (h : PausePersisted s₁) : StaysPaused s₁ s₁ where
  __ := h
  request _ := h.request
  requestID := rfl
  executionID := rfl
  respects := ⟨rfl, rfl, [], rfl, by simp⟩

theorem StaysPaused.frame (h : StaysPaused s₁ s) (hloc : s'.location ≠ .start)
    (hreqs : s'.machine.db.requests.find? s₁.machine.request.id =
      s.machine.db.requests.find? s₁.machine.request.id)
    (hexecs : s'.machine.db.executions.find? s₁.machine.execution.id =
      s.machine.db.executions.find? s₁.machine.execution.id)
    (hid : s'.machine.request.id = s.machine.request.id)
    (hstate : s'.location.isReturned = false →
      s.location.isReturned = false ∧ s'.machine.request.jobState = s.machine.request.jobState)
    (hexec : s'.machine.execution = s.machine.execution)
    (heffects : ∃ since, s'.machine.effects = since ++ s.machine.effects ∧
      ∀ effect ∈ since, effect.harmless = true) : StaysPaused s₁ s' where
  location := hloc
  memory := by rw [hexec, h.memory]
  request hret := by
    obtain ⟨hopen, hsame⟩ := hstate hret
    rw [hsame, h.request hopen]
  requestID := hid.trans h.requestID
  executionID := by rw [hexec, h.executionID]
  respects := by
    obtain ⟨new, hnew, hharm⟩ := heffects
    obtain ⟨since, hsince, hharm'⟩ := h.respects.reported
    refine ⟨hreqs.trans h.respects.requestRow, hexecs.trans h.respects.executionRow,
      new ++ since, by rw [hnew, hsince, append_assoc], ?_⟩
    exact forall_mem_append.mpr ⟨hharm, hharm'⟩

theorem Respects.harmless_of_mem {effect : Effect} {effects : List Effect} (h : Respects s₁ s)
    (h' : Respects s₁ s') (heff : s'.machine.effects = effects ++ s.machine.effects)
    (hmem : effect ∈ effects) : effect.harmless = true := by
  obtain ⟨since, hsince, -⟩ := h.reported
  obtain ⟨since', hsince', hharm⟩ := h'.reported
  rw [heff, hsince, ← append_assoc] at hsince'
  rw [← append_cancel_right hsince'] at hharm
  exact hharm effect (mem_append_left _ hmem)

section

variable (h : StaysPaused s₁ s)
include h

theorem StaysPaused.machine (hloc : s'.location ≠ .start) (hmach : s'.machine = s.machine)
    (hret : s'.location.isReturned = false → s.location.isReturned = false) :
    StaysPaused s₁ s' := by
  refine h.frame hloc ?_ ?_ ?_ (fun hopen => ⟨hret hopen, ?_⟩) ?_ ⟨[], ?_, by simp⟩ <;> rw [hmach]
  rfl

theorem StaysPaused.passes (hpass : Passes w c s s') :
    StaysPaused s₁ s' ∧ Yields s (.proceed c) := by
  have hplace : s.location.isReturned = false ∧ Yields s (.proceed c) := by
    cases hpass with
    | closes hl =>
      rcases hl with hl | hl <;> simp [hl, Yields, isReturned, concluding]
    | _ => simp_all [Yields, isReturned, concluding]
  have hstart := (Supervision.glides_of_passes hpass).start
  refine ⟨?_, hplace.2⟩
  rcases hpass.machine with hmach | hmach
  · exact h.machine hstart hmach fun _ => hplace.1
  · refine h.frame hstart ?_ ?_ ?_ (fun _ => ⟨hplace.1, ?_⟩) ?_ ⟨[], ?_, by simp⟩ <;>
      rw [hmach] <;> rfl

theorem StaysPaused.conclude (err : String) (c : Clock) :
    (s.errorCode ∈ [ErrorCodes.restartJob, ErrorCodes.pauseJob,
        ErrorCodes.manualApprovalRequired] → StaysPaused s₁ (s.conclude err c)) ∧
      (Respects s₁ (s.conclude err c) → s.errorCode ∈ [ErrorCodes.restartJob, ErrorCodes.pauseJob,
        ErrorCodes.manualApprovalRequired]) := by
  have hidle : (s.machine.pauseJob c).1 = s.machine :=
    s.machine.pauseJob_of_not_executing c (by rw [h.memory]; decide)
  unfold JobSupervisor.conclude
  by_cases hrest : s.errorCode = ErrorCodes.restartJob
  · rw [if_pos hrest]
    refine ⟨fun _ => ?_, fun _ => by simp [hrest]⟩
    have hdb := s.machine.restartJobBackToPendingPaused_refused c err
    refine h.frame (by simp) (by rw [hdb]) (by rw [hdb]) ?_ (fun hopen => ?_) ?_ ?_
    · simp [restartJobBackToPendingPaused]
    · simp [isReturned] at hopen
    · simp [restartJobBackToPendingPaused]
    · refine ⟨[.recorded (.pending true)], ?_, by simp [Effect.harmless]⟩
      simp [restartJobBackToPendingPaused]
  · rw [if_neg hrest]
    by_cases hpause : s.errorCode = ErrorCodes.pauseJob
    · rw [if_pos hpause]
      refine ⟨fun _ => ?_, fun _ => by simp [hpause]⟩
      exact h.machine (by simp) hidle (by simp [isReturned])
    rw [if_neg hpause]
    by_cases happr : s.errorCode = ErrorCodes.manualApprovalRequired
    · rw [if_pos happr]
      refine ⟨fun _ => ?_, fun _ => by simp [happr]⟩
      exact h.machine (by simp) rfl (by simp [isReturned])
    rw [if_neg happr]
    refine ⟨fun hcode => by simp [hrest, hpause, happr] at hcode, fun hresp => ?_⟩
    -- PAUSED is not terminal, and so the failure is recorded
    have hlive : s.machine.execution.jobState.isTerminal = false := by
      rw [h.memory]
      rfl
    have heff : ∃ effect, (s.machine.executionFailed s.errorCode err c).1.effects =
        [effect, .recorded .failed] ++ s.machine.effects := by
      unfold executionFailed
      rw [hlive, if_neg Bool.false_ne_true]
      exact ⟨_, congrArg (_ :: ·) (failed_spec _ _ _ _ _ _).effects⟩
    obtain ⟨effect, heff⟩ := heff
    have hbad := h.respects.harmless_of_mem hresp heff (mem_cons_of_mem _ (mem_singleton_self _))
    simp [Effect.harmless] at hbad

theorem StaysPaused.complete {result : Option String} :
    ¬ Respects s₁ { s with
      machine := (s.machine.executionCompleted c).1, location := .returned result } := by
  intro hresp
  have heff : (s.machine.executionCompleted c).1.effects =
      [.published completed, .recorded .succeeded] ++ s.machine.effects := by
    simp [executionCompleted, publish, report, finalizeStats, hasFailed]
  have hbad := h.respects.harmless_of_mem hresp heff mem_cons_self
  simp [Effect.harmless, isTerminal] at hbad

theorem StaysPaused.proceed
    (hrow : ∃ e, s₁.machine.db.executions.find? s₁.machine.execution.id = some e ∧
      e.jobState = paused) (he : s.proceed w c = some s') :
    (Yields s (.proceed c) → StaysPaused s₁ s') ∧ (Respects s₁ s' → Yields s (.proceed c)) := by
  cases proceeds_of_proceed he with
  | launches hl | unlaunched hl => exact absurd hl h.location
  | passes hpass =>
    obtain ⟨hstays, hyields⟩ := h.passes hpass
    exact ⟨fun _ => hstays, fun _ => hyields⟩
  | @asks taskType db hl hdb =>
    -- the execution is PAUSED, and so the statement is refused
    obtain ⟨e, hfind, hstate⟩ := hrow
    rw [← h.respects.executionRow, ← h.executionID] at hfind
    obtain ⟨err, herr⟩ := JobExecutionRepository.update_of_execution hfind executing
      manualApprovalRequired (by rw [hstate]; decide) taskType c.now
    cases herr.symm.trans hdb
  | completes hl =>
    exact ⟨fun hok => absurd hl hok.1, fun hresp => absurd hresp h.complete⟩
  | @concludes err hl =>
    obtain ⟨hstays, hyields⟩ := h.conclude err c
    refine ⟨fun hok => hstays (hok.2 err (by rw [hl]; rfl)), fun hresp => ⟨by simp [hl], ?_⟩⟩
    exact fun _ _ => hyields hresp

theorem StaysPaused.taskDone {outcome : TaskOutcome}
    (he : s.step w (.taskDone outcome c) = some s') : StaysPaused s₁ s' := by
  -- the task is saved, and the rows of the job are not
  have hsub (taskType : String)
      (hmach : s'.machine = (s.machine.submitTask w taskType outcome c.now).machine)
      (hstart : s'.location ≠ .start) (hopen : s.location.isReturned = false) :
      StaysPaused s₁ s' := by
    have hjob := s.machine.submitTask_sameJob w taskType outcome c.now
    refine h.frame hstart ?_ ?_ ?_ (fun _ => ⟨hopen, ?_⟩) ?_ ⟨[], ?_, by simp⟩ <;> rw [hmach]
    · rw [hjob.db]
    · rw [hjob.db]
    · rw [hjob.request]
    · rw [hjob.request]
    · rw [hjob.execution]
    · exact hjob.effects
  simp only [JobSupervisor.step] at he
  split at he
  · next taskType hl =>
    cases he
    have hglide := Supervision.taskDone_glides (w := w) s taskType outcome c (by rw [hl]; rfl)
    exact hsub taskType (s.taskDone_machine taskType outcome c) hglide.start (by rw [hl]; rfl)
  · next taskType taskTypes err hl =>
    cases he
    exact hsub taskType rfl (by simp) (by rw [hl]; rfl)
  · cases he

theorem StaysPaused.step {action : Action}
    (hrow : ∃ e, s₁.machine.db.executions.find? s₁.machine.execution.id = some e ∧
      e.jobState = paused) (he : (pausedSystem w).step s action = some s') :
    (Respects s₁ s' ↔ Yields s action) ∧ (Yields s action → StaysPaused s₁ s') := by
  obtain ⟨hcalm, he⟩ := ite_none_right_eq_some.mp he
  have htrue : ∀ {p : Prop}, p → StaysPaused s₁ s' →
      (Respects s₁ s' ↔ p) ∧ (p → StaysPaused s₁ s') :=
    fun hp hstays => ⟨iff_of_true hstays.respects hp, fun _ => hstays⟩
  cases action with
  | proceed =>
    obtain ⟨hstays, hyields⟩ := h.proceed hrow he
    exact ⟨⟨hyields, fun hok => (hstays hok).respects⟩, hstays⟩
  | taskDone => exact htrue trivial (h.taskDone he)
  | lifecycleEvent state c =>
    refine htrue trivial ?_
    obtain ⟨-, he⟩ := ite_none_right_eq_some.mp he
    cases he
    have hpause : state = paused := hcalm
    subst hpause
    refine h.machine h.location ?_ fun hopen => hopen
    exact s.machine.pauseJob_of_not_executing c (by rw [h.memory]; decide)
  | database =>
    refine htrue trivial ?_
    cases he
    obtain ⟨hreq, hex⟩ := hcalm
    rw [h.requestID] at hreq
    rw [h.executionID] at hex
    exact h.frame h.location hreq hex rfl (fun hopen => ⟨hopen, rfl⟩) rfl ⟨[], rfl, by simp⟩

end

/-- A pause that has been persisted is respected in exactly those runs of the loop that do not come
to their end with success, or with an error that asks for none of a restart, a pause and an
approval. -/
theorem respects_iff_yields {s₀ : JobSupervisor} {c : Clock}
    (hevent : s₀.step w (.lifecycleEvent paused c) = some s₁)
    (hexecuting : s₀.machine.execution.jobState = executing)
    (hrequest : (s₁.machine.db.requests.find? s₁.machine.request.id).map JobRequest.jobState =
      some paused) (hexecution : (s₁.machine.db.executions.find? s₁.machine.execution.id).map
      JobExecution.jobState = some paused) (actions : List Action) :
    (pausedSystem w).Along (Respects s₁) s₁ actions ↔ (pausedSystem w).Meets Yields s₁ actions := by
  have hexecution := map_eq_some_iff.mp hexecution
  have hpersisted : PausePersisted s₁ := by
    obtain ⟨⟨hloc, -⟩, hevent⟩ := ite_none_right_eq_some.mp hevent
    cases hevent
    refine ⟨hloc, ?_, ?_, map_eq_some_iff.mp hrequest, hexecution⟩ <;>
      simp [JobStateMachine.updateFromJobLifecycleEvent, JobStateMachine.pauseJob, isTerminal,
        hexecuting, JobStateMachine.publish, JobStateMachine.report]
  exact TransitionSystem.along_iff_meets (I := StaysPaused s₁) (fun _ h => h.respects)
    (fun _ _ _ h he => (h.step hexecution he).imp_left Iff.mp) hpersisted.staysPaused actions

def toFirstTask : List Action :=
  [.proceed {}, .proceed {}, .proceed {}]

theorem exists_paused_in_flight (after : List Action) (p : JobSupervisor → JobSupervisor → Prop)
    (h : ∃ s₀ ∈ (system compileAndTest).runWith (fun _ _ => True) launched toFirstTask,
      s₀.machine.execution.jobState = executing ∧
      ∃ s₁ ∈ s₀.step compileAndTest (.lifecycleEvent paused {}),
        (s₁.machine.db.requests.find? s₁.machine.request.id).map JobRequest.jobState = some paused ∧
        (s₁.machine.db.executions.find? s₁.machine.execution.id).map JobExecution.jobState =
          some paused ∧
        ∃ s' ∈ (pausedSystem compileAndTest).runWith (fun _ _ => True) s₁ after, p s₁ s') :
    ∃ s₀ s₁ s', (system compileAndTest).Reachable s₀ ∧ s₀.machine.execution.jobState = executing ∧
      s₀.step compileAndTest (.lifecycleEvent paused {}) = some s₁ ∧
      (s₁.machine.db.requests.find? s₁.machine.request.id).map JobRequest.jobState = some paused ∧
      (s₁.machine.db.executions.find? s₁.machine.execution.id).map JobExecution.jobState =
        some paused ∧
      (pausedSystem compileAndTest).runWith (fun _ _ => True) s₁ after = some s' ∧ p s₁ s' := by
  obtain ⟨s₀, hs₀, hexec, s₁, hs₁, hreq, hex, s', hs', hp⟩ := h
  exact ⟨s₀, s₁, s', (TransitionSystem.ReachableWith.init initial_launched).runWith hs₀, hexec, hs₁,
    hreq, hex, hs', hp⟩

def askedToPause : TaskOutcome where
  run := .started (.invoked [.response ⟨paused, "0", "", ErrorCodes.pauseJob, "", none⟩] "")

/-- The task that is in flight asks for a pause too, and the loop leaves by the way of a pause. -/
theorem respects_after_asked_to_pause : ∃ s₁, (pausedSystem compileAndTest).Along (Respects s₁) s₁
      (.taskDone askedToPause {} :: List.replicate 4 (.proceed {})) := by
  obtain ⟨s₀, s₁, s', -, hexec, hevent, hreq, hex, -, hmeets⟩ :=
    exists_paused_in_flight [] (fun s₁ _ => (pausedSystem compileAndTest).Meets Yields s₁
      (.taskDone askedToPause {} :: replicate 4 (.proceed {}))) (by decide)
  exact ⟨s₁, (respects_iff_yields hevent hexec hreq hex _).mpr hmeets⟩

/-- The task that is in flight fails over the cancelled context: the loop publishes the failure of
the paused job, and counts it. -/
theorem failed_after_pause : ∃ s₀ s₁ s', (system compileAndTest).Reachable s₀ ∧
      s₀.machine.execution.jobState = executing ∧
      s₀.step compileAndTest (.lifecycleEvent paused {}) = some s₁ ∧
      (s₁.machine.db.requests.find? s₁.machine.request.id).map JobRequest.jobState = some paused ∧
      (s₁.machine.db.executions.find? s₁.machine.execution.id).map JobExecution.jobState =
        some paused ∧
      (pausedSystem compileAndTest).runWith (fun _ _ => True) s₁
        (.taskDone (replied failed) {} :: List.replicate 4 (.proceed {})) = some s' ∧
      s'.machine.effects = [.published failed, .recorded .failed] ++ s₁.machine.effects :=
  exists_paused_in_flight _ _ (by decide)

end JobSupervisor

end Formicary

import Formicary.Model.TaskSupervisor

/-! # How the run of a task can end

The statuses and exit codes a task execution can be left with, read off the task definition alone.
-/

namespace Formicary

open RequestState

namespace TaskDefinition

variable (td : TaskDefinition)

/-- What an answer to the task request can amount to. A status that the routing table gives to the
exit code takes the place of the one reported. -/
def Answers (state : RequestState) (exitCode : String) : Prop :=
  if td.method = .manual then state = manualApprovalRequired ∧ exitCode = "AWAITING_APPROVAL"
  else state = failed ∧ exitCode = "" ∨
    ∀ override ∈ td.overrideStatusAndErrorCode exitCode, state = override.1

def Completes (exitCode : String) : Prop :=
  if td.isExcept then exitCode = "SKIPPED"
  else td.Answers completed exitCode ∨
    exitCode = "APPROVED" ∧ ∃ awaiting, td.Answers manualApprovalRequired awaiting

/-- The ends of a run after which the job goes on. A run that comes to no final status is a failure,
which only an optional task is forgiven. -/
def Ends (state : RequestState) (exitCode : String) : Prop :=
  state = completed ∧ td.Completes exitCode ∨
    td.isExcept = false ∧ state.canFinalize = true ∧ td.Answers state exitCode ∨
    td.allowFailure = true ∧ state = failed ∧ (exitCode = "" ∨
      td.isExcept = false ∧ ∃ last, last.canFinalize = false ∧ td.Answers last exitCode)

end TaskDefinition

namespace TaskSupervisor

variable {td : TaskDefinition}

@[simp] theorem overrideResponse_exitCode (resp : TaskResponse) :
    (overrideResponse td resp).exitCode = resp.exitCode := by
  unfold overrideResponse
  split <;> rfl

theorem invoke_answers (td : TaskDefinition) (reply : Reply) :
    td.Answers (invoke td reply).status (invoke td reply).exitCode := by
  unfold TaskDefinition.Answers invoke
  split
  · exact ⟨rfl, rfl⟩
  cases reply with
  | undecodable => exact .inl ⟨rfl, rfl⟩
  | response =>
    right
    intro override hover
    rw [overrideResponse_exitCode, Option.mem_def] at hover
    simp only [overrideResponse, hover]

variable {state : RequestState} {exitCode : String}

theorem exists_reply (h : td.Answers state exitCode) :
    ∃ reply, (invoke td reply).status = state ∧ (invoke td reply).exitCode = exitCode := by
  unfold TaskDefinition.Answers at h
  split at h
  · next hman =>
    refine ⟨.undecodable "" none, ?_⟩
    rw [invoke, if_pos hman]
    exact ⟨h.1.symm, h.2.symm⟩
  next hman =>
  rcases h with ⟨rfl, rfl⟩ | h
  · refine ⟨.undecodable "" none, ?_⟩
    rw [invoke, if_neg hman]
    exact ⟨rfl, rfl⟩
  refine ⟨.response ⟨state, exitCode, "", "", "", none⟩, ?_⟩
  rw [invoke, if_neg hman]
  refine ⟨?_, by simp⟩
  unfold overrideResponse
  cases hover : td.overrideStatusAndErrorCode exitCode with
  | none => rfl
  | some override => exact (h override hover).symm

section Update

variable (p : Progress) (resp : TaskResponse)

@[simp] theorem updateTaskFromResponse_taskState :
    (updateTaskFromResponse p resp).task.taskState = resp.status := by
  unfold updateTaskFromResponse
  split
  · rfl
  · split <;> rfl

@[simp] theorem updateTaskFromResponse_exitCode :
    (updateTaskFromResponse p resp).task.exitCode = resp.exitCode := by
  unfold updateTaskFromResponse
  split
  · rfl
  · split <;> rfl

@[simp] theorem updateTaskFromResponse_taskType :
    (updateTaskFromResponse p resp).task.taskType = p.task.taskType := by
  unfold updateTaskFromResponse
  split
  · rfl
  · split <;> rfl

end Update

theorem tryReplies_answers (td : TaskDefinition) (p : Progress) (retried : ℤ)
    (replies : List Reply) :
    (tryReplies td p retried replies).task = p.task ∨
      td.Answers (tryReplies td p retried replies).task.taskState
        (tryReplies td p retried replies).task.exitCode := by
  induction replies generalizing p retried with
  | nil => exact .inl rfl
  | cons reply replies ih =>
    have hnext : td.Answers (updateTaskFromResponse p (invoke td reply)).task.taskState
        (updateTaskFromResponse p (invoke td reply)).task.exitCode := by
      simpa using invoke_answers td reply
    unfold tryReplies
    dsimp only
    split
    · exact .inr hnext
    split
    · rcases ih (updateTaskFromResponse p (invoke td reply)) (retried + 1) with hsame | h
      · rw [hsame]
        exact .inr hnext
      · exact .inr h
    · exact .inr hnext

theorem tryReplies_single (p : Progress) (reply : Reply) :
    tryReplies td p 0 [reply] = updateTaskFromResponse p (invoke td reply) := by
  unfold tryReplies
  dsimp only
  split
  · rfl
  · split <;> rfl

def Recorded (td : TaskDefinition) (run : TaskRun) : Prop :=
  ∀ exitCode exitMessage, run = .started (.reused exitCode exitMessage) → td.Completes exitCode

variable {p : Progress} {run : TaskRun}

theorem prepareAndTry_spec (hstate : p.task.taskState = ready)
    (hexit : p.task.exitCode = "") (hrun : Recorded td run) :
    let q := prepareAndTry td p run
    q.task.taskState = completed ∧ td.Completes q.task.exitCode ∨
      td.isExcept = false ∧ td.Answers q.task.taskState q.task.exitCode ∨
      q.task.exitCode = "" ∧ (q.task.taskState.canFinalize = false ∨
        q.task.taskState = failed ∧ q.err ≠ none) := by
  cases run with
  | unprepared => exact .inr (.inr ⟨hexit, .inl (by simp [prepareAndTry, hstate]; rfl)⟩)
  | antsUnavailable =>
    exact .inr (.inr ⟨hexit, .inr ⟨rfl, by simp [prepareAndTry]⟩⟩)
  | notStarted => exact .inr (.inr ⟨hexit, .inl rfl⟩)
  | started attempt =>
    unfold prepareAndTry tryExecuteTask
    dsimp only
    split
    · next hexc =>
      refine .inl ⟨rfl, ?_⟩
      rw [TaskDefinition.Completes, if_pos hexc]
    next hexc =>
    cases attempt with
    | unbuilt => exact .inr (.inr ⟨hexit, .inl rfl⟩)
    | reused => exact .inl ⟨rfl, hrun _ _ rfl⟩
    | invoked replies =>
      rcases tryReplies_answers td
        { p with task := { p.task with taskState := executing } } 0 replies with hsame | h
      · refine .inr (.inr ?_)
        rw [hsame]
        exact ⟨hexit, .inl rfl⟩
      · exact .inr (.inl ⟨by simpa using hexc, h⟩)

theorem ensureFinal_canFinalize (p : Progress) (fault : String) :
    (ensureFinal p fault).task.taskState.canFinalize = true := by
  unfold ensureFinal
  split
  · assumption
  · rfl

theorem execute_canFinalize (p : Progress) (run : TaskRun) (now : Time) :
    (execute td p run now).task.taskState.canFinalize = true := by
  unfold execute
  split
  · next hdone =>
    simp only [hdone]
    rfl
  · exact ensureFinal_canFinalize _ _

theorem execute_task (td : TaskDefinition) (hstate : p.task.taskState = ready)
    (run : TaskRun) (now : Time) :
    let q := prepareAndTry td p run
    (execute td p run now).task.exitCode = q.task.exitCode ∧ if q.task.taskState.canFinalize then
        (execute td p run now).task.taskState = q.task.taskState ∧
          (execute td p run now).err = q.err
      else (execute td p run now).task.taskState = failed ∧ (execute td p run now).err ≠ none := by
  have hready : p.task.taskState ≠ completed := by simp [hstate]
  simp only [execute, if_neg hready, ensureFinal]
  split <;> simp [finalizeTaskState, setFailed]

section Ready

variable (hstate : p.task.taskState = ready) (hexit : p.task.exitCode = "")
  (hrun : Recorded td run) (now : Time)
include hstate hexit hrun

theorem execute_ends (hgoes : (execute td p run now).err = none ∨ td.allowFailure = true) :
    td.Ends (execute td p run now).task.taskState (execute td p run now).task.exitCode := by
  have hspec := prepareAndTry_spec hstate hexit hrun
  obtain ⟨hcode, hend⟩ := execute_task td hstate run now
  rw [hcode]
  split at hend
  · next hfinal =>
    rw [hend.1]
    rw [hend.2] at hgoes
    rcases hspec with h | h | ⟨hexit, hopen | ⟨hfail, herr⟩⟩
    · exact .inl h
    · exact .inr (.inl ⟨h.1, hfinal, h.2⟩)
    · rw [hfinal] at hopen
      cases hopen
    · exact .inr (.inr ⟨hgoes.resolve_left herr, hfail, .inl hexit⟩)
  · next hopen =>
    rw [hend.1]
    refine .inr (.inr ⟨hgoes.resolve_left hend.2, rfl, ?_⟩)
    rcases hspec with h | h | h
    · exact absurd (h.1 ▸ rfl) hopen
    · exact .inr ⟨h.1, _, by simpa using hopen, h.2⟩
    · exact .inl h.1

theorem execute_completes (h : (execute td p run now).task.taskState = completed) :
    td.Completes (execute td p run now).task.exitCode := by
  have hspec := prepareAndTry_spec hstate hexit hrun
  obtain ⟨hcode, hend⟩ := execute_task td hstate run now
  rw [hcode]
  split at hend
  · next hfinal =>
    rw [hend.1] at h
    rcases hspec with hspec | ⟨hexc, hansw⟩ | ⟨_, hopen | ⟨hfail, _⟩⟩
    · exact hspec.2
    · rw [h] at hansw
      rw [TaskDefinition.Completes, hexc, if_neg Bool.false_ne_true]
      exact .inl hansw
    · rw [hfinal] at hopen
      cases hopen
    · rw [hfail] at h
      cases h
  · rw [hend.1] at h
    cases h

end Ready

theorem tryReplies_taskType (p : Progress) (retried : ℤ) (replies : List Reply) :
    (tryReplies td p retried replies).task.taskType = p.task.taskType := by
  induction replies generalizing p retried with
  | nil => rfl
  | cons reply replies ih =>
    unfold tryReplies
    dsimp only
    split
    · simp
    split
    · simp [ih]
    · simp

@[simp] theorem execute_taskType (p : Progress) (run : TaskRun) (now : Time) :
    (execute td p run now).task.taskType = p.task.taskType := by
  have htry : (prepareAndTry td p run).task.taskType = p.task.taskType := by
    cases run with
    | unprepared | antsUnavailable | notStarted => rfl
    | started attempt =>
      unfold prepareAndTry tryExecuteTask
      dsimp only
      split
      · rfl
      cases attempt with
      | unbuilt | reused => rfl
      | invoked => simp [tryReplies_taskType]
  unfold execute ensureFinal finalizeTaskState setFailed
  split
  · rfl
  split <;> exact htry

theorem prepareAndTry_invoked (p : Progress) (hexc : td.isExcept = false) (reply : Reply) :
    (prepareAndTry td p (.started (.invoked [reply] ""))).task.taskState =
        (invoke td reply).status ∧
      (prepareAndTry td p (.started (.invoked [reply] ""))).task.exitCode =
        (invoke td reply).exitCode ∧
      (prepareAndTry td p (.started (.invoked [reply] ""))).err = none := by
  simp [prepareAndTry, tryExecuteTask, hexc, tryReplies_single]

theorem exists_run (h : td.Ends state exitCode) :
    ∃ run, Recorded td run ∧ ∀ p : Progress, p.task.taskState = ready → p.task.exitCode = "" →
      ∀ now, (execute td p run now).task.taskState = state ∧
        (execute td p run now).task.exitCode = exitCode ∧
        ((execute td p run now).err = none ∨ td.allowFailure = true) := by
  rcases h with ⟨rfl, hcompl⟩ | ⟨hexc, hfinal, hansw⟩ | ⟨hallow, rfl, hexit⟩
  · refine ⟨.started (.reused exitCode ""), ?_, fun p hstate _ now => ?_⟩
    · rintro _ _ ⟨⟩
      exact hcompl
    have hready : p.task.taskState ≠ completed := by simp [hstate]
    unfold TaskDefinition.Completes at hcompl
    simp only [execute, if_neg hready, prepareAndTry, tryExecuteTask]
    split at hcompl
    · next hexc =>
      rw [if_pos hexc]
      exact ⟨rfl, hcompl.symm, .inl rfl⟩
    · next hexc =>
      rw [if_neg hexc]
      exact ⟨rfl, rfl, .inl rfl⟩
  · obtain ⟨reply, hstat, hcode⟩ := exists_reply hansw
    refine ⟨.started (.invoked [reply] ""), nofun, fun p hstate _ now => ?_⟩
    obtain ⟨hstate', hexit', herr'⟩ := prepareAndTry_invoked p hexc reply
    obtain ⟨hexit, hend⟩ := execute_task td hstate (.started (.invoked [reply] "")) now
    rw [hstate', hstat, hfinal, if_pos rfl] at hend
    exact ⟨hend.1, hexit.trans (hexit'.trans hcode), .inl (hend.2.trans herr')⟩
  · rcases hexit with rfl | ⟨hexc, last, hlast, hansw⟩
    · refine ⟨.unprepared "", nofun, fun p hstate hexit now => ?_⟩
      obtain ⟨hexit', hend⟩ := execute_task td hstate (.unprepared "") now
      simp only [prepareAndTry, hstate] at hend
      exact ⟨hend.1, hexit'.trans hexit, .inr hallow⟩
    · obtain ⟨reply, hstat, hcode⟩ := exists_reply hansw
      refine ⟨.started (.invoked [reply] ""), nofun, fun p hstate _ now => ?_⟩
      obtain ⟨hstate', hexit', _⟩ := prepareAndTry_invoked p hexc reply
      obtain ⟨hexit, hend⟩ := execute_task td hstate (.started (.invoked [reply] "")) now
      rw [hstate', hstat, hlast, if_neg Bool.false_ne_true] at hend
      exact ⟨hend.1, hexit.trans (hexit'.trans hcode), .inr hallow⟩

end TaskSupervisor

end Formicary

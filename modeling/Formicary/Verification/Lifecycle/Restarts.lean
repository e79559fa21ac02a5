import Formicary.Verification.Lifecycle.Relaunch

/-! # Which tasks run again

`allow_start_if_completed` is not read, and what an execution has completed itself is never run
again. -/

namespace Formicary.JobLauncher

open RequestState

/-- The task that the last execution has completed. -/
def JobLaunch.completedLast? (launch : JobLaunch) (taskType : String) : Option TaskExecution :=
  launch.lastExecution.bind fun last => completedTask? last taskType

variable {Context Artifact : Type} (contexts : TaskExecution → List Context)
  (artifacts : TaskExecution → List Artifact) (reencode : Context → Option Context)
  (saves : Artifact → Bool) (launch : JobLaunch) (hardResetAfterRetries : ℤ) (allowed : Bool)
  (td : TaskDefinition)

/-- A task is due again if the job starts over, or if the task allows it. Otherwise an earlier
result is kept as it is. -/
structure RestartRules : Prop where
  again : doesRequireFullRestart hardResetAfterRetries launch.request = true ∨ allowed = true →
    launch.sendsToAnt hardResetAfterRetries td = true
  kept : doesRequireFullRestart hardResetAfterRetries launch.request = false → allowed = false →
    ∀ t ∈ (completedTask? launch.execution td.taskType).or (launch.completedLast? td.taskType),
      launch.sendsToAnt hardResetAfterRetries td = false ∧
      launch.continuesWith contexts artifacts reencode saves hardResetAfterRetries td =
        some (resultOf contexts artifacts t)

variable {contexts artifacts reencode saves launch hardResetAfterRetries allowed td}
  {t : TaskExecution}

theorem filterMap_eq_self_iff {l : List Context} :
    l.filterMap reencode = l ↔ ∀ c ∈ l, reencode c = some c := by
  induction l with
  | nil => simp
  | cons c l ih =>
    cases hc : reencode c with
    | none =>
      refine iff_of_false (fun heq => ?_) (by simp [hc])
      have hlen := congrArg List.length heq
      have hle := List.length_filterMap_le reencode l
      rw [List.filterMap_cons_none hc, List.length_cons] at hlen
      omega
    | some => simp [hc, ih]

theorem takenOver_eq_iff :
    takenOver contexts artifacts reencode saves t = resultOf contexts artifacts t ↔
      (∀ c ∈ contexts t, reencode c = some c) ∧ ∀ a ∈ artifacts t, saves a = true := by
  simp [takenOver, resultOf, filterMap_eq_self_iff]

theorem completedLast?_eq (taskType : String) : launch.completedLast? taskType =
    (launch.lastExecution.bind fun last => last.getTask taskType).filter
      fun t => t.taskState == completed := by
  cases hlast : launch.lastExecution <;> simp [JobLaunch.completedLast?, completedTask?, hlast]

theorem canReuse_eq (taskType : String) :
    canReusePreviousResult hardResetAfterRetries launch.request
      (launch.lastExecution.bind fun last => last.getTask taskType) =
    (!doesRequireFullRestart hardResetAfterRetries launch.request &&
      (launch.completedLast? taskType).isSome) := by
  rw [canReusePreviousResult, completedLast?_eq, Option.isSome_filter]

theorem sendsToAnt_eq_not (hexc : td.isExcept = false) (hmeth : td.method ≠ .manual) :
    launch.sendsToAnt hardResetAfterRetries td =
      !((completedTask? launch.execution td.taskType).isSome ||
        (!doesRequireFullRestart hardResetAfterRetries launch.request &&
          (launch.completedLast? td.taskType).isSome)) := by
  have hsent : (td.method != .manual) = true := by simpa using hmeth
  simp [JobLaunch.sendsToAnt, hexc, hsent, canReuse_eq, completedTask?]

theorem continuesWith_eq :
    launch.continuesWith contexts artifacts reencode saves hardResetAfterRetries td =
      ((completedTask? launch.execution td.taskType).map (resultOf contexts artifacts)).or
        (if doesRequireFullRestart hardResetAfterRetries launch.request then none
        else (launch.completedLast? td.taskType).map
          (takenOver contexts artifacts reencode saves)) := by
  rw [JobLaunch.continuesWith]
  dsimp only
  rw [canReuse_eq, completedLast?_eq]
  cases completedTask? launch.execution td.taskType with
  | some => rfl
  | none =>
    cases launch.lastExecution.bind fun last => last.getTask td.taskType with
    | none => simp
    | some t =>
      cases doesRequireFullRestart hardResetAfterRetries launch.request with
      | true => simp
      | false => by_cases h : t.taskState = completed <;> simp [h]

def buildTask : TaskDefinition := JobSupervisor.shellTask "build" ""

/-- The execution has completed the build, or has yet to come to it. -/
def built (done : Bool) : JobExecutionRepository.LoadedExecution :=
  ⟨Lifecycle.pausedExecution, if done then [Lifecycle.completedTask] else []⟩

end Formicary.JobLauncher

import Formicary.Verification.Supervisor.Termination

/-! # The targets of a routing table

Validation and the supervisors each have their own reading of an entry of a routing table. -/

namespace Formicary

open RequestState JobSupervisor TaskSupervisor JobDefinition List TaskDefinition Routing

/-- A response of an ant that ends the run of a task under a condition of the routing table: its
exit code is the condition, or its status is and there is no entry for its exit code. -/
def TaskDefinition.EndsUnder (td : TaskDefinition) (condition : String) (te : TaskExecution) :
    Prop :=
  ∃ p resp, te = (updateTaskFromResponse p
      (overrideResponse td resp)).task ∧ te.taskState.canFinalize = true ∧
    (newRequestState te.exitCode = condition ∨ te.taskState.name = condition ∧
        td.onExitCode.lookup (newRequestState te.exitCode) = none)

namespace Routing

def specialErrorCodes : List String :=
  [ErrorCodes.restartJob, ErrorCodes.pauseJob, ErrorCodes.fatal,
    ErrorCodes.manualApprovalRequired, ErrorCodes.restartTask]

/-- The job goes on with a task of its definition, waits for an approval, completes, fails as its
task has failed, or is told a special action. -/
inductive Acts (jd : JobDefinition) (td : TaskDefinition) (te : TaskExecution) : Routing → Prop
  | next {taskType : String} (h : (jd.getTask taskType).isSome) : Acts jd td te (.next taskType)
  | waitForApproval : Acts jd td te .waitForApproval
  | complete : Acts jd td te (.stop "" none)
  | fail (hfailed : te.taskState = failed) (hallow : td.allowFailure = false) :
      Acts jd td te (.stop te.errorCode (some te.errorMessage))
  | special {code : String} {err : Option String} (h : code ∈ specialErrorCodes) :
      Acts jd td te (.stop code err)

end Routing

namespace JobDefinition

/-- Validation and the supervisors agree on an entry of a routing table: it is accepted if and only
if every run that ends under its condition is acted upon. -/
def Agrees (jd : JobDefinition) (td : TaskDefinition) (condition target : String) : Prop :=
  (∃ name, jd.validateTarget td target = .ok name) ↔
    ∀ te, td.EndsUnder condition te → Routing.Acts jd td te (Routing.of jd td.taskType td te)

variable (jd : JobDefinition) (td : TaskDefinition)

def specialActions : List String :=
  [restartJob, pauseJob, paused, fatal, waitForApproval, restartTask].map name

/-- A task of that status has somewhere to go: it waits or pauses, it fails the job, or the entry of
the status names a task or a special action. An optional task can also go where it would have gone
had it completed. -/
def Lands (state : RequestState) : Prop :=
  state = manualApprovalRequired ∨ state = paused ∨ state = failed ∧ td.allowFailure = false ∨
    (jd.getTask (td.onExitCode.target state.name)).isSome ∨
    td.allowFailure = true ∧ (jd.getTask (td.onExitCode.target completed.name)).isSome ∨
    newRequestState (td.onExitCode.target state.name) ∈ specialActions

instance (state : RequestState) : Decidable (Lands jd td state) :=
  inferInstanceAs (Decidable (_ ∨ _ ∨ _ ∧ _ ∨ _ ∨ _ ∧ _ ∨ _))

/-- The entry of an exit code has somewhere to go. A word for a status needs an entry of that
status, an error code and a restart count as failures, and any other target has to name a task,
unless every status an ant can report beside the exit code lands. -/
def ExitLands (target : String) : Prop :=
  let word := newRequestState target
  if word ∈ [executing, pauseJob, waitForApproval].map name then True
  else if word = completed.name then Lands jd td completed
  else if word ∈ [failed, fatal].map name then Lands jd td failed
  else if word ∈ [restartJob, restartTask].map name ∨ Text.startsWith target "ERR_" then
    (jd.getTask target).isSome ∨ Lands jd td failed
  else
    (jd.getTask (if word = paused.name then td.onExitCode.target pauseJob.name
      else target)).isSome ∨
      Lands jd td completed ∧ Lands jd td failed ∧ Lands jd td cancelled

instance (target : String) : Decidable (ExitLands jd td target) := by
  unfold ExitLands
  infer_instance

def Resolves (condition target : String) : Prop :=
  (newRequestState condition = condition → ExitLands jd td target) ∧
    ∀ state ∈ [completed, failed, cancelled], state.name = condition → Lands jd td state

instance (condition target : String) : Decidable (Resolves jd td condition target) :=
  inferInstanceAs (Decidable ((_ → _) ∧ ∀ state ∈ [completed, failed, cancelled], _ → _))

/-- The targets that validation knows are those of the entries that have somewhere to go. -/
def Consistent (condition target : String) : Prop :=
  if target ≠ "" ∧ (isReserved target = true ∨ (jd.getTask target).isSome) then
    Resolves jd td condition target
  else ¬ Resolves jd td condition target

variable {jd td}

theorem getTask_isSome {t : TaskDefinition} (h : t ∈ jd.tasks) : (jd.getTask t.taskType).isSome :=
  find?_isSome.mpr ⟨t, h, by simp⟩

theorem getTask_empty (hnames : ∀ t ∈ jd.tasks, t.taskType ≠ "") : jd.getTask "" = none :=
  find?_eq_none.mpr fun t ht => by simpa using hnames t ht

def redirect (td : TaskDefinition) (target : String) : String :=
  let word := newRequestState target
  if word = pauseJob.name ∨ word = paused.name then td.onExitCode.target pauseJob.name
  else if word = completed.name then td.onExitCode.target completed.name
  else if word = failed.name ∨ word = fatal.name then td.onExitCode.target failed.name
  else target

theorem newRequestState_name (state : RequestState) : newRequestState state.name = state.name := by
  cases state <;> rfl

theorem getNextTask_isSome (jd : JobDefinition) (state : RequestState) {exitCode : String}
    (hent : td.onExitCode.entries.isEmpty = false)
    (hexec : newRequestState (td.onExitCode.target (newRequestState exitCode)) ≠ executing.name) :
    (jd.getNextTask td state exitCode).isSome ↔
      (jd.getTask (redirect td (td.onExitCode.target (newRequestState exitCode)))).isSome ∨
      (jd.getTask (td.onExitCode.target state.name)).isSome ∨
      td.allowFailure = true ∧ (jd.getTask (td.onExitCode.target completed.name)).isSome := by
  unfold getNextTask
  rw [if_neg (by simp [hent])]
  dsimp only
  rw [if_neg hexec, newRequestState_name]
  split
  · next next hfound =>
    have hredir : jd.getTask (redirect td (td.onExitCode.target (newRequestState exitCode))) =
        some next := hfound
    simp [hredir]
  next hfound =>
  have hredir : jd.getTask (redirect td (td.onExitCode.target (newRequestState exitCode))) =
      none := hfound
  rw [hredir]
  cases jd.getTask (td.onExitCode.target state.name) with
  | some => simp
  | none => cases hallow : td.allowFailure <;> simp

end JobDefinition

namespace Routing

variable {jd : JobDefinition} {td : TaskDefinition} {te : TaskExecution}

theorem not_acts_invalidNextTask (hfails : ¬ (te.taskState = failed ∧ td.allowFailure = false))
    (message : String) : ¬ Acts jd td te (.stop ErrorCodes.invalidNextTask (some message)) := by
  intro h
  generalize hstop : stop ErrorCodes.invalidNextTask (some message) = routing at h
  cases h with
  | next | waitForApproval => cases hstop
  | complete => exact absurd hstop (by simp)
  | fail hfail hallow => exact hfails ⟨hfail, hallow⟩
  | special h =>
    cases hstop
    exact absurd h (by decide)

theorem special_acts (hfails : ¬ (te.taskState = failed ∧ td.allowFailure = false)) :
    Acts jd td te (special td.taskType td te) ↔
      newRequestState (td.onExitCode.target te.taskState.name) ∈ specialActions := by
  unfold special
  dsimp only
  generalize newRequestState (td.onExitCode.target te.taskState.name) = word
  iterate 5
    split
    · refine iff_of_true (.special (by decide)) ?_
      simp only [specialActions, map_cons, map_nil, mem_cons]
      tauto
  refine iff_of_false (not_acts_invalidNextTask hfails _) ?_
  simp only [specialActions, map_cons, map_nil, mem_cons, not_mem_nil]
  tauto

theorem last_acts (hent : td.onExitCode.entries.isEmpty = false) :
    Acts jd td te (last td.taskType td te) ↔ te.taskState = paused ∨
      te.taskState = failed ∧ td.allowFailure = false ∨
      newRequestState (td.onExitCode.target te.taskState.name) ∈ specialActions := by
  unfold last
  split
  · next hfails => exact iff_of_true (.fail hfails.1 hfails.2) (.inr (.inl hfails))
  next hfails =>
  split
  · next hpause => exact iff_of_true (.special (by decide)) (.inl hpause)
  next hpause =>
  rw [if_pos (by simp [hent]), special_acts hfails]
  simp [hpause, hfails]

theorem of_acts (htd : td ∈ jd.tasks) (hent : td.onExitCode.entries.isEmpty = false)
    (hexec : newRequestState (td.onExitCode.target (newRequestState te.exitCode)) ≠
      executing.name) :
    Acts jd td te (of jd td.taskType td te) ↔ (jd.getTask (redirect td
        (td.onExitCode.target (newRequestState te.exitCode)))).isSome ∨
      jd.Lands td te.taskState := by
  have hnext := getNextTask_isSome jd te.taskState hent hexec
  unfold of JobDefinition.Lands
  split
  · next hwaits => exact iff_of_true .waitForApproval (.inr (.inl hwaits))
  next hwaits =>
  cases hfound : jd.getNextTask td te.taskState te.exitCode with
  | some next =>
    rw [hfound] at hnext
    have hmem : next ∈ jd.tasks := by
      rcases Workflow.getNextTask_mem hfound with rfl | hmem
      · exact htd
      · exact hmem
    refine iff_of_true (.next (getTask_isSome hmem)) ?_
    rcases hnext.mp rfl with h | h | h <;> simp [h]
  | none =>
    rw [hfound] at hnext
    obtain ⟨htarg, hrest⟩ := not_or.mp (mt hnext.mpr (by simp))
    obtain ⟨hstat, hoptional⟩ := not_or.mp hrest
    rw [last_acts hent]
    simp only [hwaits, htarg, hstat, hoptional, Bool.false_eq_true, false_or]

end Routing

namespace TaskDefinition.EndsUnder

variable {td : TaskDefinition} {condition exitCode : String} {te : TaskExecution}
  {state : RequestState}

theorem taskState_eq (h : td.EndsUnder condition te) :
    ∀ override ∈ td.overrideStatusAndErrorCode te.exitCode, te.taskState = override.1 := by
  obtain ⟨p, resp, rfl, _⟩ := h
  intro override hover
  rw [updateTaskFromResponse_exitCode, overrideResponse_exitCode, Option.mem_def] at hover
  rw [updateTaskFromResponse_taskState]
  simp only [overrideResponse, hover]

theorem exists_response (hfinal : state.canFinalize = true)
    (hstate : ∀ override ∈ td.overrideStatusAndErrorCode exitCode, state = override.1)
    (hcond : newRequestState exitCode = condition ∨
      state.name = condition ∧ td.onExitCode.lookup (newRequestState exitCode) = none) :
    ∃ te, td.EndsUnder condition te ∧ te.taskState = state ∧ te.exitCode = exitCode := by
  let task : TaskExecution := ⟨"", "", td.taskType, executing, td.allowFailure, "", "", "", "", "",
    1, none, 0, true⟩
  let resp : TaskResponse := ⟨state, exitCode, "", "", "", none⟩
  have hstat : (overrideResponse td resp).status = state := by
    unfold overrideResponse
    cases hover : td.overrideStatusAndErrorCode resp.exitCode with
    | none => rfl
    | some override => exact (hstate override hover).symm
  generalize hte : updateTaskFromResponse ⟨task, none, none, ""⟩ (overrideResponse td resp) = p
  have hstate' : p.task.taskState = state := by
    rw [← hte, updateTaskFromResponse_taskState, hstat]
  have hexit' : p.task.exitCode = exitCode := by
    rw [← hte, updateTaskFromResponse_exitCode, overrideResponse_exitCode]
  refine ⟨p.task, ⟨⟨task, none, none, ""⟩, resp, by rw [hte], ?_⟩, hstate', hexit'⟩
  rw [hstate', hexit']
  exact ⟨hfinal, hcond⟩

end TaskDefinition.EndsUnder

namespace JobDefinition

variable {jd : JobDefinition} {td : TaskDefinition} {condition target exitCode : String}
  {state : RequestState}

theorem Lands.of_task
    (h : (jd.getTask (td.onExitCode.target state.name)).isSome) : jd.Lands td state :=
  .inr (.inr (.inr (.inl h)))

theorem newRequestState_ne_paused (target : String) (h : Text.startsWith target "ERR_" = true) :
    newRequestState target ≠ paused.name := by
  obtain ⟨rest, hrest⟩ := Text.startsWith_iff.mp h
  intro heq
  have hlist := congrArg String.toList heq
  simp [newRequestState, Text.toUpper, Text.upper, ← hrest, name] at hlist

theorem lands_or_iff (jd : JobDefinition) (td : TaskDefinition) (X : Prop)
    (hfinal : state.canFinalize = true) :
    (∀ s : RequestState, s.canFinalize = true → s = state → X ∨ jd.Lands td s) ↔
      X ∨ jd.Lands td state :=
  ⟨fun h => h state hfinal rfl, fun h _ _ hs => hs ▸ h⟩

theorem forall_final_iff (jd : JobDefinition) (td : TaskDefinition) (X : Prop) :
    (∀ s : RequestState, s.canFinalize = true → X ∨ jd.Lands td s) ↔
      X ∨ jd.Lands td completed ∧ jd.Lands td failed ∧ jd.Lands td cancelled := by
  constructor
  · intro h
    by_cases hX : X
    · exact .inl hX
    exact .inr ⟨(h completed rfl).resolve_left hX, (h failed rfl).resolve_left hX,
      (h cancelled rfl).resolve_left hX⟩
  · rintro (hX | ⟨hdone, hfail, hcanc⟩) s hs
    · exact .inl hX
    right
    cases s with
    | completed => exact hdone
    | failed => exact hfail
    | cancelled => exact hcanc
    | manualApprovalRequired => exact .inl rfl
    | paused => exact .inr (.inl rfl)
    | _ => cases hs

theorem newRequestState_newRequestState (text : String) :
    newRequestState (newRequestState text) = newRequestState text := by
  simp [newRequestState, Text.toUpper, Function.comp_def]

theorem exists_unlisted (onExitCode : OnExitCode) :
    ∃ exitCode, onExitCode.lookup (newRequestState exitCode) = none := by
  have hinjective : Function.Injective fun n : ℕ =>
      newRequestState (String.ofList (replicate n 'A')) := by
    intro m n h
    have hlen := congrArg (fun s : String => s.toList.length) h
    simpa [newRequestState, Text.toUpper] using hlen
  obtain ⟨_, ⟨n, rfl⟩, hn⟩ :=
    (Set.infinite_range_of_injective hinjective).exists_notMem_finset onExitCode.keys.toFinset
  exact ⟨_, AList.lookup_eq_none.mpr fun hmem => hn (mem_toFinset.mpr hmem)⟩

theorem target_unlisted {key : String} (h : td.onExitCode.lookup key = none) :
    td.onExitCode.target key = "" := by
  simp [OnExitCode.target, h]

theorem override_unlisted (h : td.onExitCode.lookup (newRequestState exitCode) = none) :
    td.overrideStatusAndErrorCode exitCode = none := by
  unfold overrideStatusAndErrorCode
  rw [target_unlisted h]
  exact ite_self none

section Entries

variable (hent : td.onExitCode.entries.isEmpty = false)
include hent

theorem forall_reported_iff (htarg : td.onExitCode.target (newRequestState exitCode) = target) :
    (∀ state : RequestState, state.canFinalize = true →
      (∀ override ∈ td.overrideStatusAndErrorCode exitCode, state = override.1) →
      (jd.getTask (redirect td target)).isSome ∨ jd.Lands td state) ↔ jd.ExitLands td target := by
  have hfail : (jd.getTask (td.onExitCode.target failed.name)).isSome = true ∨
      jd.Lands td failed ↔ jd.Lands td failed := or_iff_right_of_imp Lands.of_task
  have hdone : (jd.getTask (td.onExitCode.target completed.name)).isSome = true ∨
      jd.Lands td completed ↔ jd.Lands td completed := or_iff_right_of_imp Lands.of_task
  unfold overrideStatusAndErrorCode ExitLands redirect
  rw [htarg]
  rw [if_neg (by simp [hent])]
  have hcode := newRequestState_ne_paused target
  generalize newRequestState target = word at hcode ⊢
  have hfinal : failed.canFinalize = true ∧ completed.canFinalize = true := ⟨rfl, rfl⟩
  by_cases hword : word ∈ [fatal, failed, completed, executing, restartJob, pauseJob,
      waitForApproval, restartTask].map name
  · simp only [map_cons, map_nil, mem_cons, not_mem_nil, or_false] at hword
    rcases hword with rfl | rfl | rfl | rfl | rfl | rfl | rfl | rfl
    · simpa [name] using (lands_or_iff jd td _ hfinal.1).trans hfail
    · simpa [name] using (lands_or_iff jd td _ hfinal.1).trans hfail
    · simpa [name] using (lands_or_iff jd td _ hfinal.2).trans hdone
    · -- the task is invoked again
      refine iff_of_true (fun state hstate hrep => ?_) trivial
      obtain rfl := hrep _ rfl
      cases hstate
    · simpa [name] using lands_or_iff jd td _ hfinal.1
    · refine iff_of_true (fun state _ hrep => ?_) trivial
      exact .inr (.inr (.inl (hrep _ rfl)))
    · refine iff_of_true (fun state _ hrep => ?_) trivial
      exact .inr (.inl (hrep _ rfl))
    · simpa [name] using lands_or_iff jd td _ hfinal.1
  · simp only [map_cons, map_nil, mem_cons, not_mem_nil, or_false, not_or] at hword
    by_cases hpref : Text.startsWith target "ERR_" = true
    · simpa [hword, hpref, hcode hpref] using lands_or_iff jd td _ hfinal.1
    by_cases hpause : word = paused.name
    · subst hpause
      simpa [hpref, name] using forall_final_iff jd td _
    · simpa [hword, hpref, hpause] using forall_final_iff jd td _

theorem not_executing (hfinal : state.canFinalize = true)
    (hstate : ∀ override ∈ td.overrideStatusAndErrorCode exitCode, state = override.1) :
    newRequestState (td.onExitCode.target (newRequestState exitCode)) ≠ executing.name := by
  intro hword
  unfold overrideStatusAndErrorCode at hstate
  rw [if_neg (by simp [hent]), hword] at hstate
  obtain rfl := hstate _ rfl
  cases hfinal

variable (htd : td ∈ jd.tasks)
include htd

theorem acts_iff {te : TaskExecution} (hte : td.EndsUnder condition te)
    (htarg : td.onExitCode.target (newRequestState te.exitCode) = target) :
    Routing.Acts jd td te (of jd td.taskType td te) ↔
      (jd.getTask (redirect td target)).isSome ∨ jd.Lands td te.taskState := by
  have hfinal : te.taskState.canFinalize = true := by
    obtain ⟨_, _, _, hfinal, _⟩ := hte
    exact hfinal
  rw [of_acts htd hent (not_executing hent hfinal hte.taskState_eq), htarg]

theorem acts_iff_of_unlisted (hnames : ∀ t ∈ jd.tasks, t.taskType ≠ "") {te : TaskExecution}
    (hte : td.EndsUnder condition te)
    (hunl : td.onExitCode.lookup (newRequestState te.exitCode) = none) :
    Routing.Acts jd td te (of jd td.taskType td te) ↔ jd.Lands td te.taskState := by
  rw [acts_iff hent htd hte (target_unlisted hunl)]
  have hredir : redirect td "" = "" := rfl
  simp [hredir, getTask_empty hnames]

end Entries

theorem forall_acts_iff (hnames : ∀ t ∈ jd.tasks, t.taskType ≠ "") (htd : td ∈ jd.tasks)
    (hentry : td.onExitCode.lookup condition = some target) :
    (∀ te, td.EndsUnder condition te → Routing.Acts jd td te (of jd td.taskType td te)) ↔
      jd.Resolves td condition target := by
  have hent : td.onExitCode.entries.isEmpty = false := by
    cases hlist : td.onExitCode.entries with
    | nil => simp [AList.lookup, hlist] at hentry
    | cons => rfl
  have htarg : td.onExitCode.target condition = target := by simp [OnExitCode.target, hentry]
  constructor
  · intro h
    refine ⟨fun hupper => ?_, fun state hmem hname => ?_⟩
    · -- an ant responds with the condition as its exit code
      have htarg' : td.onExitCode.target (newRequestState condition) = target := by
        rw [hupper, htarg]
      refine (forall_reported_iff hent htarg').mp fun state hfinal hstate => ?_
      obtain ⟨te, hte, rfl, hexit⟩ := TaskDefinition.EndsUnder.exists_response hfinal hstate
        (.inl hupper)
      exact (acts_iff hent htd hte (by rw [hexit, htarg'])).mp (h te hte)
    · -- an ant responds with the condition as its status, and an exit code without an entry
      have hfinal : state.canFinalize = true := by
        fin_cases hmem <;> rfl
      obtain ⟨exitCode, hunl⟩ := exists_unlisted td.onExitCode
      have hstate : ∀ override ∈ td.overrideStatusAndErrorCode exitCode, state = override.1 := by
        simp [override_unlisted hunl]
      obtain ⟨te, hte, rfl, rfl⟩ := TaskDefinition.EndsUnder.exists_response hfinal hstate
        (.inr ⟨hname, hunl⟩)
      exact (acts_iff_of_unlisted hent htd hnames hte hunl).mp (h te hte)
  · rintro ⟨hexit, hstat⟩ te hte
    obtain ⟨_, _, _, hfinal, hcond⟩ := id hte
    rcases hcond with rfl | ⟨rfl, hunl⟩
    · rw [acts_iff hent htd hte htarg]
      exact (forall_reported_iff hent htarg).mpr
        (hexit (newRequestState_newRequestState te.exitCode)) te.taskState hfinal hte.taskState_eq
    rw [acts_iff_of_unlisted hent htd hnames hte hunl]
    cases hstate : te.taskState with
    | completed => exact hstat completed (by simp) (by rw [hstate])
    | failed => exact hstat failed (by simp) (by rw [hstate])
    | cancelled => exact hstat cancelled (by simp) (by rw [hstate])
    | manualApprovalRequired => exact .inl rfl
    | paused => exact .inr (.inl rfl)
    | _ => rw [hstate] at hfinal; cases hfinal

/-- Validation and the supervisors agree on an entry of a routing table exactly if validation knows
its target just in case the entry has somewhere to go. -/
theorem agrees_iff_consistent {declared : List TaskDefinition}
    (htasks : validateTaskExitCodes declared = .ok jd.tasks) (htd : td ∈ jd.tasks)
    (hentry : td.onExitCode.lookup condition = some target) :
    jd.Agrees td condition target ↔ jd.Consistent td condition target := by
  unfold Agrees Consistent
  rw [exists_validateTarget, forall_acts_iff (validateTaskExitCodes_names htasks) htd hentry]
  split
  · next hknown => exact iff_true_left hknown
  · next hunknown => exact iff_false_left hunknown

theorem resolves_of_task (hentry : td.onExitCode.lookup condition = some target)
    (htask : (jd.getTask target).isSome)
    (hword : newRequestState target ∉ [fatal, failed, completed, executing, restartJob, pauseJob,
      waitForApproval, restartTask, paused].map name) : jd.Resolves td condition target := by
  simp only [map_cons, map_nil, mem_cons, not_mem_nil, or_false, not_or] at hword
  refine ⟨fun _ => ?_, fun state _ hname => Lands.of_task ?_⟩
  · simp [ExitLands, hword, htask]
  · rw [hname, show td.onExitCode.target condition = target by simp [OnExitCode.target, hentry]]
    exact htask

theorem agrees_compile_test : (jobOf [(shellTask "compile" "test").addOutcomes,
      shellTask "test" ""]).Agrees
      (shellTask "compile" "test").addOutcomes "COMPLETED" "test" := by
  have htasks : validateTaskExitCodes [shellTask "compile" "test", shellTask "test" ""] =
    .ok (jobOf [(shellTask "compile" "test").addOutcomes, shellTask "test" ""]).tasks := rfl
  refine (agrees_iff_consistent htasks (.head _) rfl).mpr ?_
  exact resolves_of_task rfl rfl (by decide)

def probe (exitCode target : String) : TaskDefinition :=
  { shellTask "probe" "" with
    onExitCode := ((∅ : OnExitCode).insert exitCode target).insert "FAILED" "report" }

def probing (exitCode target : String) : JobDefinition :=
  jobOf [probe exitCode target, shellTask "report" ""]

/-- An accepted word that leads to an invalid next task, and a word that the supervisors know but
validation does not. -/
theorem probe_disagrees : (probing "3" "COMPLETED").validate.toOption.isSome = true ∧
    ¬ (probing "3" "COMPLETED").Agrees (probe "3" "COMPLETED") "3" "COMPLETED" ∧
    ¬ (probing "7" "WAIT_FOR_APPROVAL").Agrees (probe "7" "WAIT_FOR_APPROVAL") "7"
      "WAIT_FOR_APPROVAL" := by
  have hnames : ∀ exitCode target, ∀ t ∈ (probing exitCode target).tasks, t.taskType ≠ "" := by
    simp [probing, probe, jobOf, shellTask]
  unfold Agrees
  rw [exists_validateTarget, exists_validateTarget, forall_acts_iff (hnames _ _) (.head _) rfl,
    forall_acts_iff (hnames _ _) (.head _) rfl]
  decide

end JobDefinition

end Formicary

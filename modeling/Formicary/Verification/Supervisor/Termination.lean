import Formicary.Library.Walk
import Formicary.Verification.Definition.Validation
import Formicary.Verification.Supervisor.Machine
import Formicary.Verification.Supervisor.TaskEnds

/-! # Termination of the task loop

`executeNextTask` follows the routing tables from task to task, and a task that has completed is not
run again but leads on as before. -/

namespace Formicary

open RequestState JobSupervisor JobStateMachine TaskSupervisor JobDefinition List

variable {td' : TaskDefinition} {jd : JobDefinition}

namespace Workflow

variable (w : Workflow)

/-- The end of some run of a task makes another task the next one. -/
def Leads (taskType next : String) : Prop :=
  ∃ td state exitCode, w.getDynamicTask taskType = .ok td ∧ td.Ends state exitCode ∧
    state ≠ manualApprovalRequired ∧
    (w.stored.getNextTask td state exitCode).map TaskDefinition.taskType = some next

def Recalls (m : JobStateMachine) : Prop :=
  ∀ te ∈ m.tasks, te.taskState = completed → ∀ td, w.getDynamicTask te.taskType = .ok td →
    td.Completes te.exitCode

def Assigns (outcome : String → TaskOutcome × Clock) : Prop :=
  ∀ taskType td, w.getDynamicTask taskType = .ok td →
    TaskSupervisor.Recorded td (outcome taskType).1.run

/-- However the tasks end, `executeNextTask` returns after finitely many of them. -/
def Terminates : Prop :=
  ∀ first (m : JobStateMachine), w.stored.getFirstTask = .ok first → w.Recalls m →
    ∀ outcomes : ℕ → String → TaskOutcome × Clock, (∀ n, w.Assigns (outcomes n)) →
      ∃ n, (executeNextTask w m first.taskType ((List.range n).map outcomes)).isSome = true

variable {w} {td : TaskDefinition}

variable {taskType : String}

theorem getDynamicTask_eq_ok (h : w.getDynamicTask taskType = .ok td) :
    ∃ task, parseYamlTag w.declared taskType = some task ∧ td.taskType = task.taskType ∧
      task.loadOnExitCode.validate = .ok td := by
  unfold getDynamicTask at h
  split at h
  · cases h
  split at h
  · cases h
  next task htask => exact ⟨task, htask, (TaskDefinition.validate_taskType h).1.trans rfl, h⟩

theorem parseYamlTag_taskType {task : TaskDefinition}
    (h : parseYamlTag w.declared taskType = some task) :
    parseYamlTag w.declared task.taskType = some task := by
  obtain ⟨hstart, before, after, htasks, hbefore⟩ := find?_eq_some_iff_append.mp h
  refine find?_eq_some_iff_append.mpr ⟨?_, before, after, htasks, fun other hother => ?_⟩
  · exact Text.startsWith_iff.mpr (prefix_refl _)
  · -- a type that begins with the task's begins with the name that was asked for
    have hnot := hbefore other hother
    rw [Bool.not_eq_true', ← Bool.not_eq_true, Text.startsWith_iff] at hnot ⊢
    exact fun hother => hnot ((Text.startsWith_iff.mp hstart).trans hother)

/-- The task that is run for a name is run for its own type, too. -/
theorem getDynamicTask_of_taskType (h : w.getDynamicTask taskType = .ok td)
    (h' : w.getDynamicTask td.taskType = .ok td') :
    w.getDynamicTask td.taskType = w.getDynamicTask taskType := by
  obtain ⟨task, htask, htype, hvalid⟩ := getDynamicTask_eq_ok h
  obtain ⟨task', htask', -, hvalid'⟩ := getDynamicTask_eq_ok h'
  rw [htype, parseYamlTag_taskType htask] at htask'
  cases htask'
  rw [h', h, ← hvalid', hvalid]

theorem getNextTask_mem {next : TaskDefinition} {state : RequestState}
    {exitCode : String} (h : jd.getNextTask td state exitCode = some next) :
    next = td ∨ next ∈ jd.tasks := by
  unfold getNextTask at h
  dsimp only at h
  split at h
  · cases h
  split at h
  · exact .inl (Option.some.inj h).symm
  split at h
  · next hnext =>
    cases h
    exact .inr (getTask_eq_some hnext).1
  split at h
  · next hnext =>
    cases h
    exact .inr (getTask_eq_some hnext).1
  · split at h
    · exact .inr (getTask_eq_some h).1
    · cases h

theorem Leads.mem_tasks {next : String} (h : w.Leads taskType next) :
    next ∈ (w.declared.tasks ++ w.stored.tasks).map TaskDefinition.taskType := by
  obtain ⟨td, state, exitCode, htd, _, _, hnext⟩ := h
  obtain ⟨nextDef, hdef, rfl⟩ := Option.map_eq_some_iff.mp hnext
  rcases getNextTask_mem hdef with rfl | hmem
  · obtain ⟨task, htask, htype, -⟩ := getDynamicTask_eq_ok htd
    rw [htype]
    exact mem_map_of_mem (mem_append_left _ (mem_of_find?_eq_some htask))
  · exact mem_map_of_mem (mem_append_right _ hmem)

theorem finite_reached (first : String) :
    {taskType | Relation.ReflTransGen w.Leads first taskType}.Finite := by
  have hfinite :=
    ((w.declared.tasks ++ w.stored.tasks).map TaskDefinition.taskType).finite_toSet.insert first
  refine hfinite.subset fun taskType h => ?_
  rcases Relation.ReflTransGen.cases_tail h with rfl | ⟨_, _, hleads⟩
  · exact .inl rfl
  · exact .inr hleads.mem_tasks

end Workflow

namespace Routing

section

variable (taskType : String) (td : TaskDefinition) (te : TaskExecution) (next : String)

theorem special_ne_next : special taskType td te ≠ .next next := by
  unfold special
  dsimp only
  repeat' split
  all_goals simp

theorem last_ne_next : last taskType td te ≠ .next next := by
  unfold last
  repeat' split
  all_goals first | exact special_ne_next taskType td te next | simp

end

theorem of_eq_next_iff {te : TaskExecution} {taskType next : String} :
    of jd taskType td te = .next next ↔ te.taskState ≠ manualApprovalRequired ∧
      (jd.getNextTask td te.taskState te.exitCode).map TaskDefinition.taskType = some next := by
  unfold of
  split
  · next hwaits => simp [hwaits]
  next hwaits =>
  cases jd.getNextTask td te.taskState te.exitCode with
  | none => simp [hwaits, last_ne_next]
  | some => simp [hwaits]

end Routing

namespace JobStateMachine

variable {w : Workflow} {m : JobStateMachine} {td : TaskDefinition} {te : TaskExecution}
  {taskType : String} {outcome : TaskOutcome} {now : Time}

theorem mem_addTask {task : TaskExecution} (h : te ∈ (m.addTask task).tasks) :
    te ∈ m.tasks ∨ te = task := by
  unfold addTask at h
  split at h
  · simpa using h
  · exact .inl h

def runOf (m : JobStateMachine) (taskType : String) (td : TaskDefinition) (outcome : TaskOutcome)
    (now : Time) : TaskSupervisor.Progress :=
  execute td ⟨m.newTaskExecution td outcome.id now, m.errorCode, none, taskType⟩ outcome.run now

theorem runOf_taskType : (m.runOf taskType td outcome now).task.taskType = td.taskType :=
  execute_taskType _ _ _

theorem mem_runTask (h : te ∈ (m.runTask taskType td outcome now).machine.tasks) :
    te ∈ m.tasks ∨ te.taskState = .failed ∨ te = (m.runOf taskType td outcome now).task := by
  unfold runTask at h
  split at h
  · rcases mem_addTask h with hold | rfl
    · exact .inl hold
    · exact .inr (.inl rfl)
  · rcases mem_addTask h with hold | hnew
    · exact .inl hold
    · exact .inr (.inr hnew)

theorem runTask_task (h : (m.runTask taskType td outcome now).err = none)
    (htask : (m.runTask taskType td outcome now).task = some (td', te)) :
    td' = td ∧ te = (m.runOf taskType td outcome now).task ∧
      ((m.runOf taskType td outcome now).err = none ∨ td.allowFailure = true) := by
  unfold runTask at h htask
  split at h
  · cases h
  next hsave =>
  rw [hsave] at htask
  cases htask
  refine ⟨rfl, rfl, ?_⟩
  split at h
  · next hallow => exact .inr hallow
  · exact .inl (Option.map_eq_none_iff.mp h)

theorem runTask_of_saved (hsave : outcome.saveError = none)
    (hgoes : (m.runOf taskType td outcome now).err = none ∨ td.allowFailure = true) :
    (m.runTask taskType td outcome now).err = none ∧ (m.runTask taskType td outcome now).task =
        some (td, (m.runOf taskType td outcome now).task) := by
  unfold runTask
  rw [hsave]
  refine ⟨?_, rfl⟩
  dsimp only
  split
  · rfl
  · next hallow => exact Option.map_eq_none_iff.mpr (hgoes.resolve_right hallow)

theorem submitTask_cases (w : Workflow) (m : JobStateMachine) (taskType : String)
    (outcome : TaskOutcome) (now : Time) :
    (∃ m' err, m.submitTask w taskType outcome now = ⟨m', none, some err⟩ ∧
        m'.tasks.Sublist m.tasks ∧ ∀ td, w.getDynamicTask taskType = .ok td →
          outcome.renderError ≠ none ∨ outcome.deleteError ≠ none) ∨
      ∃ td, w.getDynamicTask taskType = .ok td ∧
        ((∃ old ∈ m.tasks, old.taskType = taskType ∧ old.taskState = completed ∧
            m.submitTask w taskType outcome now = ⟨m, some (td, old), none⟩) ∨
          ∃ m' : JobStateMachine, m'.tasks.Sublist m.tasks ∧
            (∀ old ∈ m.getTask taskType, m'.tasks = m.tasks.eraseP fun t => t.id == old.id) ∧
            m.submitTask w taskType outcome now = m'.runTask taskType td outcome now) := by
  unfold submitTask
  split
  · next herr =>
    exact .inl ⟨_, _, rfl, List.Sublist.refl _, fun td htd => by simp [htd] at herr⟩
  · next hrender =>
    exact .inl ⟨_, _, rfl, List.Sublist.refl _, fun _ _ => .inl (by simp [hrender])⟩
  next td htd _ =>
  split
  · next hnone => exact .inr ⟨td, htd, .inr ⟨m, List.Sublist.refl _, by simp [hnone], rfl⟩⟩
  next old hold =>
  split
  · next hdone =>
    have htype : old.taskType = taskType := by simpa using find?_some hold
    exact .inr ⟨td, htd, .inl ⟨old, mem_of_find?_eq_some hold, htype, hdone, rfl⟩⟩
  split
  · next hdel =>
    exact .inl ⟨_, _, rfl, eraseP_sublist, fun _ _ => .inr (by simp [hdel])⟩
  · exact .inr ⟨td, htd, .inr ⟨_, eraseP_sublist, by simp [hold], rfl⟩⟩

end JobStateMachine

namespace JobSupervisor

variable (w : Workflow) {m : JobStateMachine} (taskType : String)

/-- `executeNextTask` goes on from a task to another. -/
def LeadsOn (m : JobStateMachine) (outcome : TaskOutcome) (now : Time) (next : String) : Prop :=
  ∃ td te, (m.submitTask w taskType outcome now).err = none ∧
    (m.submitTask w taskType outcome now).task = some (td, te) ∧
    Routing.of w.stored taskType td te = .next next

variable (hlive : ¬ m.execution.jobState.isTerminal = true)
include hlive

theorem executeNextTask_cases (outcome : String → TaskOutcome × Clock) :
    (∃ next, LeadsOn w taskType m (outcome taskType).1 (outcome taskType).2.now next) ∨
      ∀ outcomes, (executeNextTask w m taskType (outcome :: outcomes)).isSome = true := by
  simp only [executeNextTask, if_neg hlive, LeadsOn]
  split
  · next td te htask herr =>
    split
    · exact .inr fun _ => rfl
    · next next hof => exact .inl ⟨next, td, te, herr, htask, hof⟩
    · exact .inr fun _ => rfl
  · exact .inr fun _ => rfl

variable {w taskType}

theorem LeadsOn.executeNextTask {outcome : String → TaskOutcome × Clock} {next : String}
    (h : LeadsOn w taskType m (outcome taskType).1 (outcome taskType).2.now next)
    (outcomes : List (String → TaskOutcome × Clock)) :
    executeNextTask w m taskType (outcome :: outcomes) =
      executeNextTask w (m.submitTask w taskType (outcome taskType).1
        (outcome taskType).2.now).machine next outcomes := by
  obtain ⟨td, te, herr, htask, hof⟩ := h
  rw [JobSupervisor.executeNextTask, if_neg hlive]
  simp only [htask, herr, hof]

end JobSupervisor

namespace Workflow

variable {w : Workflow} {m : JobStateMachine} {taskType next : String} {outcome : TaskOutcome}
  {now : Time}

theorem Recalls.runTask (h : w.Recalls m)
    (htd : w.getDynamicTask taskType = .ok td) (hrun : TaskSupervisor.Recorded td outcome.run) :
    w.Recalls (m.runTask taskType td outcome now).machine := by
  intro te hte hdone td' htd'
  rcases mem_runTask hte with hold | hfail | rfl
  · exact h te hold hdone td' htd'
  · rw [hfail] at hdone
    cases hdone
  · rw [runOf_taskType] at htd'
    rw [getDynamicTask_of_taskType htd htd', htd] at htd'
    cases htd'
    exact execute_completes rfl rfl hrun now hdone

theorem Recalls.submitTask (h : w.Recalls m)
    (hrun : ∀ td, w.getDynamicTask taskType = .ok td → TaskSupervisor.Recorded td outcome.run) :
    w.Recalls (m.submitTask w taskType outcome now).machine ∧
      ∀ td te, (m.submitTask w taskType outcome now).err = none →
        (m.submitTask w taskType outcome now).task = some (td, te) →
        w.getDynamicTask taskType = .ok td ∧ td.Ends te.taskState te.exitCode := by
  rcases m.submitTask_cases w taskType outcome now with
    ⟨m', err, heq, hsub, _⟩ | ⟨td, htd, ⟨old, hmem, htype, hdone, heq⟩ | ⟨m', hsub, -, heq⟩⟩
  · rw [heq]
    exact ⟨fun te hte => h te (hsub.subset hte), fun _ _ herr => by cases herr⟩
  · rw [heq]
    refine ⟨h, ?_⟩
    rintro _ _ _ ⟨⟩
    have hcode := h old hmem hdone td (htype.symm ▸ htd)
    exact ⟨htd, .inl ⟨hdone, hcode⟩⟩
  · have h' : w.Recalls m' := fun te hte => h te (hsub.subset hte)
    rw [heq]
    refine ⟨h'.runTask htd (hrun td htd), fun td' te herr htask => ?_⟩
    obtain ⟨rfl, rfl, hgoes⟩ := runTask_task herr htask
    exact ⟨htd, execute_ends rfl rfl (hrun td' htd) now hgoes⟩

theorem Recalls.leads (h : w.Recalls m)
    (hrun : ∀ td, w.getDynamicTask taskType = .ok td → TaskSupervisor.Recorded td outcome.run)
    (hnext : LeadsOn w taskType m outcome now next) : w.Leads taskType next := by
  obtain ⟨td, te, herr, htask, hof⟩ := hnext
  obtain ⟨htd, hends⟩ := (h.submitTask hrun).2 td te herr htask
  obtain ⟨hwaits, hnextTask⟩ := Routing.of_eq_next_iff.mp hof
  exact ⟨td, te.taskState, te.exitCode, htd, hends, hwaits, hnextTask⟩

theorem returns_of_acc (hacc : Acc (Function.swap w.Leads) taskType) :
    ∀ m : JobStateMachine, w.Recalls m →
      ∀ outcomes : ℕ → String → TaskOutcome × Clock, (∀ n, w.Assigns (outcomes n)) →
        ∃ n, (executeNextTask w m taskType ((range n).map outcomes)).isSome = true := by
  induction hacc with
  | intro taskType _ ih =>
    intro m hm outcomes hassn
    by_cases hterm : m.execution.jobState.isTerminal = true
    · exact ⟨0, by simp [executeNextTask, hterm]⟩
    have hrun := fun td htd => hassn 0 taskType td htd
    rcases executeNextTask_cases w taskType hterm (outcomes 0) with ⟨next, hnext⟩ | hends
    · obtain ⟨n, hn⟩ := ih next (hm.leads hrun hnext) _ (hm.submitTask hrun).1
        (fun n => outcomes (n + 1)) fun n => hassn (n + 1)
      refine ⟨n + 1, ?_⟩
      rw [range_succ_eq_map, map_cons, map_map, hnext.executeNextTask hterm]
      exact hn
    · exact ⟨1, hends []⟩

def Follows (w : Workflow) (onward : String → String) (m : JobStateMachine) : Prop :=
  ∀ te ∈ m.tasks, te.taskState = completed → ∀ td, w.getDynamicTask te.taskType = .ok td →
    Routing.of w.stored te.taskType td te = .next (onward te.taskType)

/-- A run of a task that leads on to another, whatever is in memory. -/
structure Guides (w : Workflow) (taskType next : String) (run : TaskRun) : Prop where
  recorded : ∀ td, w.getDynamicTask taskType = .ok td → TaskSupervisor.Recorded td run
  exists_task : ∃ td, w.getDynamicTask taskType = .ok td
  routing : ∀ td, w.getDynamicTask taskType = .ok td → ∀ (m : JobStateMachine) id now,
    let p := m.runOf taskType td { id := id, run := run } now
    Routing.of w.stored taskType td p.task = .next next ∧ (p.err = none ∨ td.allowFailure = true)

theorem Leads.exists_guides (h : w.Leads taskType next) : ∃ run, w.Guides taskType next run := by
  obtain ⟨td, state, exitCode, htd, hends, hwaits, hnext⟩ := h
  obtain ⟨run, hrec, hrun⟩ := exists_run hends
  refine ⟨run, ⟨?_, ⟨td, htd⟩, ?_⟩⟩
  · intro td' htd'
    rw [htd] at htd'
    cases htd'
    exact hrec
  · intro td' htd' m id now
    rw [htd] at htd'
    cases htd'
    obtain ⟨hstate, hcode, hgoes⟩ :=
      hrun ⟨m.newTaskExecution td id now, m.errorCode, none, taskType⟩ rfl rfl now
    refine ⟨Routing.of_eq_next_iff.mpr ?_, hgoes⟩
    unfold runOf
    rw [hstate, hcode]
    exact ⟨hwaits, hnext⟩

variable {onward : String → String}

/-- What is run for two names leads on alike. -/
def Respects (w : Workflow) (onward : String → String) : Prop :=
  ∀ t t', w.getDynamicTask t = w.getDynamicTask t' → onward t = onward t'

theorem Follows.submitTask {run : TaskRun} (h : w.Follows onward m) (hresp : w.Respects onward)
    (hguide : w.Guides taskType (onward taskType) run) (now : Time) :
    LeadsOn w taskType m { run := run } now (onward taskType) ∧
      w.Follows onward (m.submitTask w taskType { run := run } now).machine := by
  unfold LeadsOn
  rcases m.submitTask_cases w taskType { run := run } now with
    ⟨_, _, _, _, hfault⟩ | ⟨td, htd, ⟨old, hmem, htype, hdone, heq⟩ | ⟨m', hsub, -, heq⟩⟩
  · obtain ⟨td, htd⟩ := hguide.exists_task
    simpa using hfault td htd
  · rw [heq]
    have hof := h old hmem hdone td (htype.symm ▸ htd)
    rw [htype] at hof
    exact ⟨⟨td, old, rfl, rfl, hof⟩, h⟩
  obtain ⟨hof, hgoes⟩ := hguide.routing td htd m' "" now
  obtain ⟨herr, htask⟩ := runTask_of_saved rfl hgoes
  rw [heq]
  refine ⟨⟨td, _, herr, htask, hof⟩, fun te hte hdone td' htd' => ?_⟩
  rcases mem_runTask hte with hold | hfail | rfl
  · exact h te (hsub.subset hold) hdone td' htd'
  · rw [hfail] at hdone
    cases hdone
  -- the run is kept under the type of the task that was found
  rw [runOf_taskType] at htd' ⊢
  have hsame := getDynamicTask_of_taskType htd htd'
  rw [hsame, htd] at htd'
  cases htd'
  rw [hresp _ _ hsame]
  exact Routing.of_eq_next_iff.mpr (Routing.of_eq_next_iff.mp hof)

theorem Follows.never_returns {onCycle : Set String} {run : String → TaskRun} (c : Clock)
    (hresp : w.Respects onward)
    (hcycle : ∀ t ∈ onCycle, w.Guides t (onward t) (run t) ∧ onward t ∈ onCycle) (n : ℕ) :
    ∀ (m : JobStateMachine) taskType, taskType ∈ onCycle →
      ¬ m.execution.jobState.isTerminal = true → w.Follows onward m →
      executeNextTask w m taskType (replicate n fun t => ({ run := run t }, c)) = none := by
  induction n with
  | zero =>
    intro m taskType _ hlive _
    simp [executeNextTask, hlive]
  | succ n ih =>
    intro m taskType hmem hlive hfol
    obtain ⟨hguide, hmem'⟩ := hcycle taskType hmem
    obtain ⟨hnext, hfol'⟩ := hfol.submitTask hresp hguide c.now
    rw [replicate_succ, hnext.executeNextTask hlive]
    refine ih _ _ hmem' ?_ hfol'
    rw [(m.submitTask_sameJob w taskType { run := run taskType } c.now).execution]
    exact hlive

/-- On a cycle the next task can be chosen by what is run. -/
theorem exists_respects {onCycle : Set String}
    (hstep : ∀ t ∈ onCycle, w.Leads t (onward t) ∧ onward t ∈ onCycle) :
    ∃ onward', w.Respects onward' ∧ ∀ t ∈ onCycle, w.Leads t (onward' t) ∧ onward' t ∈ onCycle := by
  let chosen := Function.invFunOn w.getDynamicTask onCycle
  refine ⟨fun t => onward (chosen (w.getDynamicTask t)), fun t t' heq => by simp only [heq], ?_⟩
  intro t ht
  have hread : w.getDynamicTask (chosen (w.getDynamicTask t)) = w.getDynamicTask t :=
    Function.invFunOn_eq ⟨t, ht, rfl⟩
  obtain ⟨hleads, hmem⟩ := hstep _ (Function.invFunOn_mem ⟨t, ht, rfl⟩)
  unfold Leads at hleads ⊢
  rw [hread] at hleads
  exact ⟨hleads, hmem⟩

theorem not_terminates {first : TaskDefinition} (hfirst : w.stored.getFirstTask = .ok first)
    (h : ¬ Walk.Acyclic w.Leads first.taskType) : ¬ w.Terminates := by
  classical
  obtain ⟨onCycle, onward, hmem, hstep⟩ := Walk.exists_forever h
  obtain ⟨onward, hresp, hstep⟩ := exists_respects hstep
  let run : String → TaskRun := fun t =>
    if ht : t ∈ onCycle then (hstep t ht).1.exists_guides.choose else .unprepared ""
  have hguide : ∀ t ∈ onCycle, w.Guides t (onward t) (run t) := by
    intro t ht
    simp only [run, dif_pos ht]
    exact (hstep t ht).1.exists_guides.choose_spec
  have hassn : w.Assigns fun t => ({ run := run t }, {}) := by
    intro t td htd
    by_cases ht : t ∈ onCycle
    · exact (hguide t ht).recorded td htd
    simp only [run, dif_neg ht]
    intro _ _ hreused
    cases hreused
  have hempty : w.Recalls launched.machine := nofun
  intro hterminates
  obtain ⟨n, hn⟩ := hterminates first launched.machine hfirst hempty
    (fun _ t => ({ run := run t }, {})) fun _ => hassn
  have hnever := Follows.never_returns {} hresp (fun t ht => ⟨hguide t ht, (hstep t ht).2⟩) n
    launched.machine first.taskType hmem (by decide) nofun
  simp [hnever] at hn

theorem leads_of_completed
    (h : ((w.getDynamicTask taskType).toOption.any fun td => !td.isExcept && td.method ≠ .manual &&
      (td.overrideStatusAndErrorCode "0").isNone &&
      (w.stored.getNextTask td completed "0").map TaskDefinition.taskType = some next) = true) :
    w.Leads taskType next := by
  cases htd : w.getDynamicTask taskType with
  | error => simp [htd, Except.toOption] at h
  | ok td =>
    simp only [htd, Except.toOption, Option.any_some, Bool.and_eq_true, Bool.not_eq_true',
      decide_eq_true_eq, Option.isNone_iff_eq_none] at h
    obtain ⟨⟨⟨hexc, hmeth⟩, hover⟩, hnext⟩ := h
    refine ⟨td, completed, "0", htd, .inr (.inl ⟨hexc, rfl, ?_⟩), by decide, hnext⟩
    rw [TaskDefinition.Answers, if_neg hmeth, hover]
    exact .inr (by simp)

def compileAgain : Workflow :=
  .ofDeclared (jobOf [shellTask "checkout" "compile", shellTask "compile" "test",
    { shellTask "test" "compile" with onFailed := "report" },
    shellTask "report" ""]) (by decide)

end Workflow

end Formicary

import Formicary.Verification.Supervisor.AlwaysRun
import Formicary.Verification.Supervisor.Termination

/-! # The outcome that is reported

In each attempt `tryExecuteJob` submits the tasks of a path through the routing tables, and when the
path has ended without an error it looks for tasks that have failed. -/

namespace Formicary

open RequestState JobSupervisor Routing TaskSupervisor Option List
open Location (isReturned)
open JobStateMachine (publish report setJobStatusToExecuting)

theorem OnExitCode.mem_targets {table : OnExitCode} {key target : String}
    (h : table.target key = target) (hne : target ≠ "") : target ∈ table.targets := by
  unfold OnExitCode.target at h
  cases hlook : table.lookup key with
  | none =>
    rw [hlook] at h
    exact absurd h.symm hne
  | some found =>
    rw [hlook] at h
    obtain rfl : found = target := h
    exact mem_map.mpr ⟨⟨key, found⟩, of_mem_dlookup hlook, rfl⟩

variable {td : TaskDefinition} {state : RequestState}

namespace Workflow

variable {w : Workflow}

/-- The task of that type is declared with an entry that leads to another task, or one that keeps
it running. -/
def Edge (w : Workflow) (taskType next : String) : Prop :=
  ∃ task ∈ w.declared.tasks, task.taskType = taskType ∧
    let targets := task.loadOnExitCode.onExitCode.targets
    (next ∈ targets ∨
      next = taskType ∧ ∃ target ∈ targets, newRequestState target = executing.name)

/-- No task type is the beginning of the type of a task that is declared before. -/
def Told (w : Workflow) : Prop :=
  w.declared.tasks.Pairwise fun task later =>
    Text.startsWith task.taskType later.taskType = false

/-- The task that is run for a name leads to another one. -/
def Reads (w : Workflow) (taskType next : String) : Prop :=
  ∃ td, w.getDynamicTask taskType = .ok td ∧ (next ∈ td.onExitCode.targets ∨
      next = td.taskType ∧
        ∃ target ∈ td.onExitCode.targets, newRequestState target = executing.name)

variable {taskType : String}

theorem Told.taskType_eq (h : w.Told) {stored task : TaskDefinition}
    (hstored : w.stored.getTask taskType = some stored)
    (htask : parseYamlTag w.declared taskType = some task) : task.taskType = taskType := by
  obtain ⟨hstart, before, after, htasks, hbefore⟩ := find?_eq_some_iff_append.mp htask
  obtain ⟨hmem, hname⟩ := JobDefinition.getTask_eq_some hstored
  have hnamed : taskType ∈ w.declared.tasks.map TaskDefinition.taskType := by
    obtain ⟨tasks, htypes, heq⟩ := JobDefinition.validate_eq w.accepted
    rw [← htypes, ← hname]
    rw [heq] at hmem
    exact mem_map_of_mem hmem
  obtain ⟨named, hmem', rfl⟩ := mem_map.mp hnamed
  rw [htasks, mem_append, mem_cons] at hmem'
  rcases hmem' with hfirst | rfl | hlast
  · have hnot := hbefore named hfirst
    rw [Bool.not_eq_true', ← Bool.not_eq_true] at hnot
    exact absurd (Text.startsWith_iff.mpr (prefix_refl _)) hnot
  · rfl
  · -- a later task of that type would have a type that the earlier one begins with
    unfold Told at h
    rw [htasks, pairwise_append, pairwise_cons] at h
    rw [h.2.1.1 named hlast] at hstart
    cases hstart

theorem Reads.edge {next : String} (h : w.Reads taskType next) (htold : w.Told) :
    w.Edge taskType next := by
  obtain ⟨td, htd, hleads⟩ := h
  obtain ⟨task, htask, htype, hvalid⟩ := getDynamicTask_eq_ok htd
  unfold getDynamicTask at htd
  split at htd
  · cases htd
  next hstored =>
  have hname := htold.taskType_eq hstored htask
  have htable : td.onExitCode = task.loadOnExitCode.onExitCode := by
    unfold TaskDefinition.validate at hvalid
    dsimp only at hvalid
    repeat' split at hvalid
    all_goals first | cases hvalid; rfl | cases hvalid
  rw [htable, htype, hname] at hleads
  exact ⟨task, mem_of_find?_eq_some htask, hname, hleads⟩

theorem reads_of_getNextTask {next : TaskDefinition}
    {exitCode : String} (htd : w.getDynamicTask taskType = .ok td)
    (h : w.stored.getNextTask td state exitCode = some next) : w.Reads taskType next.taskType := by
  refine ⟨td, htd, ?_⟩
  -- a target that is found as a task is not empty
  have htarg : ∀ {key found}, w.stored.getTask (td.onExitCode.target key) = some found →
      found.taskType ∈ td.onExitCode.targets := by
    intro key found hfound
    obtain ⟨hmem, hname⟩ := JobDefinition.getTask_eq_some hfound
    exact OnExitCode.mem_targets hname.symm (w.stored_accepted.names found hmem)
  unfold JobDefinition.getNextTask at h
  dsimp only at h
  split at h
  · cases h
  split at h
  · next hexec =>
    cases h
    refine .inr ⟨rfl, _, OnExitCode.mem_targets rfl ?_, hexec⟩
    intro hempty
    rw [hempty] at hexec
    exact absurd hexec (by decide)
  refine .inl ?_
  split at h
  · next hfound =>
    cases h
    repeat' split at hfound
    all_goals exact htarg hfound
  · split at h
    · next hfound =>
      cases h
      exact htarg hfound
    · split at h
      · exact htarg h
      · cases h

end Workflow

theorem JobSupervisor.reads_of_taskDone {w : Workflow} {s : JobSupervisor} {next : String}
    {outcome : TaskOutcome} {c : Clock}
    (h : (s.taskDone w taskType outcome c).location = .enter next) : w.Reads taskType next := by
  obtain ⟨herr, td, te, htask, hof⟩ := taskDone_enter_iff.mp h
  obtain ⟨nextDef, hnext, rfl⟩ := map_eq_some_iff.mp (of_eq_next_iff.mp hof).2
  refine Workflow.reads_of_getNextTask ?_ hnext
  rcases s.machine.submitTask_cases w taskType outcome c.now with
    ⟨m', err, heq, -⟩ | ⟨td', htd, ⟨old, -, -, -, heq⟩ | ⟨m', -, -, heq⟩⟩
  · rw [heq] at herr
    cases herr
  · rw [heq] at htask
    cases htask
    exact htd
  · rw [heq] at herr htask
    obtain ⟨rfl, -⟩ := JobStateMachine.runTask_task herr htask
    exact htd

namespace JobSupervisor

theorem submitTask_task {w : Workflow} {m : JobStateMachine} {outcome : TaskOutcome} {now : Time}
    (h : (m.submitTask w taskType outcome now).err = none) :
    (m.submitTask w taskType outcome now).task ≠ none := by
  rcases m.submitTask_cases w taskType outcome now with
    ⟨_, _, heq, _⟩ | ⟨td, -, ⟨old, -, -, -, heq⟩ | ⟨m', -, -, heq⟩⟩ <;> rw [heq] at h ⊢
  · cases h
  · simp
  · cases hsave : outcome.saveError with
    | none => simp [JobStateMachine.runTask, hsave]
    | some err => simp [JobStateMachine.runTask, hsave] at h

/-- Where `executeNextTask` is once its task has been submitted. -/
inductive AfterTask (w : Workflow) (taskType : String) (submitted : JobStateMachine.Submitted)
    (s : JobSupervisor) : Prop where
  | unsubmitted {err : String} (herr : submitted.err = some err)
      (hlocation : s.location = .evaluate (some err))
  | waits {td : TaskDefinition} (hlocation : s.location = .approval td.taskType)
  | goesOn {td : TaskDefinition} {te : TaskExecution} {next : String}
      (herr : submitted.err = none) (htask : submitted.task = some (td, te))
      (hrouting : of w.stored taskType td te = .next next)
      (hlocation : s.location = .enter next)
  | stops {td : TaskDefinition} {te : TaskExecution} {code : String} {err : Option String}
      (herr : submitted.err = none) (htask : submitted.task = some (td, te))
      (hrouting : of w.stored taskType td te = .stop code err) (hcode : s.errorCode = code)
      (hlocation : s.location = .evaluate err)

section

variable (w : Workflow) (s : JobSupervisor) (taskType : String) (outcome : TaskOutcome)

theorem taskDone_afterTask (c : Clock) :
    AfterTask w taskType (s.machine.submitTask w taskType outcome c.now)
      (s.taskDone w taskType outcome c) := by
  simp only [taskDone]
  split
  · next herr => exact .unsubmitted herr rfl
  · next herr htask => exact absurd htask (submitTask_task herr)
  next td te herr htask =>
  split
  · exact .waits rfl
  · next next hrout => exact .goesOn herr htask hrout rfl
  · next code err hrout => exact .stops herr htask hrout rfl rfl

theorem taskDone_task (c : Clock) : (s.taskDone w taskType outcome c).task = s.task ∧
      (s.taskDone w taskType outcome c).startTaskType = s.startTaskType := by
  simp only [taskDone]
  split
  · exact ⟨rfl, rfl⟩
  · exact ⟨rfl, rfl⟩
  · split <;> exact ⟨rfl, rfl⟩

end

end JobSupervisor

theorem JobSupervisor.conclude_returned (s : JobSupervisor) (err : String) (c : Clock) :
    ∃ result, (s.conclude err c).location = .returned result := by
  unfold conclude
  repeat' split
  all_goals exact ⟨_, rfl⟩

theorem JobSupervisor.Passes.not_returned {w : Workflow} {c : Clock} {s s' : JobSupervisor}
    (h : Passes w c s s') : s.location.isReturned ≠ true := by
  cases h with
  | closes hl => rcases hl with hl | hl <;> simp [hl, isReturned]
  | _ => simp_all [isReturned]

/-- A supervisor with the tasks that it has submitted in each attempt, the latest first. -/
structure Course where
  supervisor : JobSupervisor
  attempts : List (List String)

variable {action : Action}

namespace Course

open Submission (startTask)

variable (w : Workflow) (s₀ : JobSupervisor) (t : Course)

def log : Action → List (List String)
  | .proceed _ => if t.supervisor.location = .attempt then [] :: t.attempts else t.attempts
  | .taskDone _ _ =>
    match t.supervisor.location.submitting, t.attempts with
    | some taskType, path :: rest => (taskType :: path) :: rest
    | _, attempts => attempts
  | _ => t.attempts

def step (action : Action) : Option Course :=
  (t.supervisor.step w action).map fun s => ⟨s, t.log action⟩

def system : TransitionSystem Course Action where
  init t := t = ⟨s₀, []⟩
  step := step w

/-- Every attempt has followed the edges from the task that the job starts with, which is its first
task or the one at which it is resumed. -/
def OnPaths (edge : String → String → Prop) : Prop :=
  ∀ path ∈ t.attempts, path.IsChain (fun next taskType => edge taskType next) ∧
    ∀ taskType, path.getLast? = some taskType → startTask w s₀ = .ok taskType

def AllCompleted : Prop :=
  ∀ te ∈ t.supervisor.machine.tasks, te.allowFailure = false → te.taskState = completed

/-- A job is COMPLETED only if every task that must not fail is. -/
def Reported : Prop :=
  t.supervisor.machine.execution.jobState = completed → t.AllCompleted

variable {w s₀ t} {t' : Course} {c : Clock}

def Continues (w : Workflow) (s₀ : JobSupervisor) (taskType : String) : List String → Prop
  | [] => startTask w s₀ = .ok taskType
  | last :: _ => w.Reads last taskType

def Next (w : Workflow) (s₀ : JobSupervisor) (t : Course) (taskType : String) : Prop :=
  ∃ path rest, t.attempts = path :: rest ∧ Continues w s₀ taskType path

def Begun (w : Workflow) (s₀ s : JobSupervisor) : Prop :=
  ∃ taskType, s.task = some taskType ∧ startTask w s₀ = .ok taskType

def Located (w : Workflow) (s₀ : JobSupervisor) (t : Course) : Prop :=
  match t.supervisor.location with
  | .start =>
    t.supervisor.task = s₀.task ∧
      t.supervisor.machine.execution.currentTask = s₀.machine.execution.currentTask
  | .attempt => t.supervisor.firstTask w = startTask w s₀
  | .enter taskType | .running taskType => Begun w s₀ t.supervisor ∧ t.Next w s₀ taskType
  | .approval _ | .evaluate _ => Begun w s₀ t.supervisor
  | .retry _ => Begun w s₀ t.supervisor ∧ t.supervisor.startTaskType = ""
  | .cleanup .. | .cleaning .. => False
  | .finish _ | .conclude _ | .returned _ => True

structure Inv (w : Workflow) (s₀ : JobSupervisor) (t : Course) : Prop where
  paths : t.OnPaths w s₀ w.Reads
  request : t.supervisor.location.isReturned = true ∨
    t.supervisor.machine.request.jobState.isTerminal = false
  located : t.Located w s₀

variable {s : JobSupervisor}

theorem OnPaths.attempt (h : t.OnPaths w s₀ w.Reads) :
    OnPaths w s₀ ⟨s, [] :: t.attempts⟩ w.Reads := by
  exact forall_mem_cons.mpr ⟨⟨.nil, nofun⟩, h⟩

theorem OnPaths.submit (h : t.OnPaths w s₀ w.Reads) {path : List String}
    {rest : List (List String)} (hatt : t.attempts = path :: rest)
    (hnext : Continues w s₀ taskType path) :
    OnPaths w s₀ ⟨s, (taskType :: path) :: rest⟩ w.Reads := by
  intro path' hpath'
  rcases mem_cons.mp hpath' with rfl | hpath'
  · obtain ⟨hchain, hlast⟩ := h path (by rw [hatt]; exact mem_cons_self)
    cases path with
    | nil =>
      refine ⟨.singleton _, fun first hfirst => ?_⟩
      cases hfirst
      exact hnext
    | cons => exact ⟨.cons_cons hnext hchain, fun first hfirst => hlast first hfirst⟩
  · exact h path' (by rw [hatt]; exact mem_cons_of_mem _ hpath')

section Proceed

variable {s : JobSupervisor} (h : Inv w s₀ t)
include h

theorem Inv.start (hl : t.supervisor.location = .start)
    (he : t.supervisor.proceed w c = some s) : Inv w s₀ ⟨s, t.attempts⟩ := by
  have hloc := h.located
  simp only [Located, hl] at hloc
  simp only [proceed, hl] at he
  split at he
  · next m hset =>
    cases he
    unfold setJobStatusToExecuting at hset
    split at hset <;> cases hset
    refine ⟨h.paths, .inr rfl, ?_⟩
    simp [Located, publish, report, startTask, firstTask, hloc.1, hloc.2]
  · cases he
    exact ⟨h.paths, .inl rfl, trivial⟩

theorem Inv.passes (hpass : JobSupervisor.Passes w c t.supervisor s) :
    Inv w s₀ ⟨s, if t.supervisor.location = .attempt then [] :: t.attempts else t.attempts⟩ := by
  have hloc := h.located
  have hreq := h.request.resolve_left hpass.not_returned
  unfold Located at hloc
  cases hpass with
  | @opens taskType hl hfirst =>
    simp only [hl, hfirst, if_true] at hloc ⊢
    exact ⟨h.paths.attempt, .inr hreq, ⟨taskType, rfl, hloc.symm⟩, [], _, rfl, hloc.symm⟩
  | unopened hl =>
    simp only [hl, if_true]
    exact ⟨h.paths.attempt, .inr hreq, trivial⟩
  | stops hl =>
    simp only [hl, reduceCtorEq, if_false] at hloc ⊢
    exact ⟨h.paths, .inr hreq, hloc.1⟩
  | submits hl | unasked hl =>
    simp only [hl, reduceCtorEq, if_false] at hloc ⊢
    exact ⟨h.paths, .inr hreq, hloc⟩
  | fails hl =>
    simp only [hl, reduceCtorEq, if_false] at hloc ⊢
    exact ⟨h.paths, .inr hreq, hloc, rfl⟩
  | repeats hl =>
    simp only [hl, reduceCtorEq, if_false] at hloc ⊢
    obtain ⟨⟨taskType, htask, hstart⟩, hempty⟩ := hloc
    refine ⟨h.paths, .inr hreq, ?_⟩
    simp [Located, firstTask, hempty, htask, hstart]
  | cleansUp _ hended => simp [hreq] at hended
  | skips hl | cleans hl => simp only [hl] at hloc
  | closes hl =>
    rcases hl with hl | hl <;> simp only [hl, reduceCtorEq, if_false] <;>
      exact ⟨h.paths, .inr hreq, trivial⟩
  | succeeds hl | givesUp hl | exhausted hl =>
    simp only [hl, reduceCtorEq, if_false]
    exact ⟨h.paths, .inr hreq, trivial⟩

theorem Inv.proceed (he : t.supervisor.proceed w c = some s) :
    Inv w s₀ ⟨s, t.log (.proceed c)⟩ := by
  cases proceeds_of_proceed he with
  | launches hl | unlaunched hl => simpa [log, hl] using h.start hl he
  | passes hpass => exact h.passes hpass
  | asks hl =>
    have hloc := h.located
    have hreq := h.request
    simp only [Located, hl, isReturned, Bool.false_eq_true, false_or] at hloc hreq
    simpa [log, hl] using ⟨h.paths, .inr hreq, hloc⟩
  | completes hl => simpa [log, hl] using ⟨h.paths, .inl rfl, trivial⟩
  | @concludes err hl =>
    obtain ⟨result, hret⟩ := t.supervisor.conclude_returned err c
    simpa [log, hl] using ⟨h.paths, .inl (by rw [hret]; rfl), by simp [Located, hret]⟩

end Proceed

theorem Inv.taskDone (h : Inv w s₀ t) {outcome : TaskOutcome}
    (he : t.supervisor.step w (.taskDone outcome c) = some s) :
    Inv w s₀ ⟨s, t.log (.taskDone outcome c)⟩ := by
  have hloc := h.located
  have hreq := h.request
  unfold Located at hloc
  cases hl : t.supervisor.location with
  | running taskType =>
    simp only [hl, isReturned, Bool.false_eq_true, false_or] at hloc hreq
    obtain ⟨hbegun, path, rest, hatt, hnext⟩ := hloc
    have hjob := JobSupervisor.step_taskDone_sameJob he
    simp only [JobSupervisor.step, hl, some.injEq] at he
    have hlog : t.log (.taskDone outcome c) = (taskType :: path) :: rest := by
      simp [log, hl, Location.submitting, hatt]
    rw [hlog]
    refine ⟨h.paths.submit hatt hnext, .inr (by rwa [hjob.request]), ?_⟩
    have hbegun' : Begun w s₀ s := by
      rw [← he, Begun, (JobSupervisor.taskDone_task ..).1]
      exact hbegun
    cases he ▸ JobSupervisor.taskDone_afterTask w t.supervisor taskType outcome c with
    | unsubmitted _ hlocation | waits hlocation | stops _ _ _ _ hlocation =>
      simpa [Located, hlocation] using hbegun'
    | goesOn _ _ _ hlocation =>
      have hedge := JobSupervisor.reads_of_taskDone (he ▸ hlocation)
      simp only [Located, hlocation]
      exact ⟨hbegun', taskType :: path, rest, rfl, hedge⟩
  | cleaning => simp only [hl] at hloc
  | _ =>
    simp only [JobSupervisor.step, hl] at he
    cases he

theorem pauseJob_cases (m : JobStateMachine) (c : Clock) : (m.pauseJob c).1 = m ∨
      (m.pauseJob c).1.request.jobState = paused ∧ (m.pauseJob c).1.execution.jobState = paused ∧
        (m.pauseJob c).1.tasks = m.tasks := by
  by_cases hexec : m.execution.jobState = executing
  · refine .inr ?_
    simp [JobStateMachine.pauseJob, hexec, JobStateMachine.publish, JobStateMachine.report]
  · exact .inl (m.pauseJob_of_not_executing c hexec)

def Uncancelled : Action → Prop
  | .lifecycleEvent state _ => state ≠ cancelled
  | _ => True

instance : DecidablePred Uncancelled := by
  rintro ⟨⟩ <;> dsimp only [Uncancelled] <;> infer_instance

theorem Inv.lifecycleEvent (h : Inv w s₀ t) (hstate : state ≠ cancelled)
    (he : t.supervisor.step w (.lifecycleEvent state c) = some s) : Inv w s₀ ⟨s, t.attempts⟩ := by
  simp only [JobSupervisor.step] at he
  split at he <;> cases he
  next hmay =>
  obtain rfl := hmay.2.resolve_left hstate
  refine ⟨h.paths, h.request.imp_right fun hreq => ?_, ?_⟩
  · change (t.supervisor.machine.pauseJob c).1.request.jobState.isTerminal = false
    rcases pauseJob_cases t.supervisor.machine c with hsame | ⟨hpause, -⟩
    · rwa [hsame]
    rw [hpause]
    rfl
  · have hloc := h.located
    unfold Located at hloc ⊢
    cases hl : t.supervisor.location with
    | start => exact absurd hl hmay.1
    | _ => simp only [hl] at hloc ⊢ <;> exact hloc

theorem Inv.step (h : Inv w s₀ t) (huncan : Uncancelled action)
    (he : t.step w action = some t') : Inv w s₀ t' := by
  obtain ⟨s, hs, rfl⟩ := map_eq_some_iff.mp he
  cases action with
  | proceed => exact h.proceed hs
  | taskDone => exact h.taskDone hs
  | lifecycleEvent => exact h.lifecycleEvent huncan hs
  | database =>
    cases hs
    exact { h with }

theorem inv_init (hinit : JobSupervisor.Initial s₀) : Inv w s₀ ⟨s₀, []⟩ := by
  refine ⟨nofun, .inr ?_, ?_⟩
  · rw [hinit.request]
    rfl
  · simp [Located, hinit.location]

theorem onPaths_of_uncancelled (h : (system w s₀).ReachableWith (fun _ a => Uncancelled a) t)
    (hinit : JobSupervisor.Initial s₀) (htold : w.Told) : t.OnPaths w s₀ w.Edge := by
  have hinv : Inv w s₀ t :=
    h.invariant (fun _ hs => hs ▸ inv_init hinit) fun _ _ _ hs ha hstep => hs.step ha hstep
  intro path hpath
  obtain ⟨hchain, hlast⟩ := hinv.paths path hpath
  exact ⟨hchain.imp fun _ _ hreads => hreads.edge htold, hlast⟩

end Course

/-- The task whose wait for an approval is about to be saved. -/
def Location.approves : Location → Option String
  | .approval taskType => some taskType
  | _ => none

def TaskExecution.Open (te : TaskExecution) : Prop :=
  te.allowFailure = false ∧ te.taskState ≠ completed ∧ te.taskState.hasFailed = false

instance : DecidablePred TaskExecution.Open := fun _ => inferInstanceAs (Decidable (_ ∧ _ ∧ _))

namespace TaskSupervisor

theorem execute_failed {p : Progress} {run : TaskRun} {now : Time}
    (hready : p.task.taskState = ready)
    (h : (execute td p run now).err ≠ none) : (execute td p run now).task.taskState = failed := by
  unfold execute at h ⊢
  rw [if_neg (by rw [hready]; decide)] at h ⊢
  unfold ensureFinal at h ⊢
  split at h
  · next hfinal =>
    cases run with
    | unprepared =>
      simp only [prepareAndTry, hready] at hfinal
      cases hfinal
    | antsUnavailable => rfl
    | notStarted => cases hfinal
    | started attempt =>
      -- an attempt that has come to a final status returns no error
      refine absurd ?_ h
      simp only [prepareAndTry] at hfinal ⊢
      unfold tryExecuteTask at hfinal ⊢
      split
      · rfl
      next hexc =>
      rw [if_neg hexc] at hfinal
      cases attempt with
      | unbuilt => cases hfinal
      | reused | invoked => rfl
  · next hfinal => rw [if_neg hfinal]; rfl

end TaskSupervisor

namespace JobStateMachine

variable {w : Workflow} {m : JobStateMachine} {taskType : String} {outcome : TaskOutcome}
  {now : Time} {te : TaskExecution}

theorem runTask_open (hte : te ∈ (m.runTask taskType td outcome now).machine.tasks)
    (hopen : te.Open) :
    te ∈ m.tasks ∨ (m.runTask taskType td outcome now).err = none ∧
      (m.runTask taskType td outcome now).task = some (td, te) ∧
      (te.taskState = paused ∨ te.taskState = manualApprovalRequired) := by
  unfold runTask at hte ⊢
  split at hte
  · rcases mem_addTask hte with hold | rfl
    · exact .inl hold
    · cases hopen.2.2
  next hsave =>
  rcases mem_addTask hte with hold | hnew
  · exact .inl hold
  refine .inr ?_
  have hfinal : te.taskState.canFinalize = true := by
    rw [hnew]
    exact execute_canFinalize _ _ _
  have hnone : (execute td
      ⟨m.newTaskExecution td outcome.id now, m.errorCode, none, taskType⟩ outcome.run now).err =
        none := by
    by_contra hsome
    have hfail := execute_failed rfl hsome
    rw [← hnew] at hfail
    have hopen' := hopen.2.2
    rw [hfail] at hopen'
    cases hopen'
  dsimp only
  refine ⟨?_, by rw [hnew], ?_⟩
  · rw [hnone]
    split <;> rfl
  have hopen' := hopen.2
  cases hstate : te.taskState with
  | paused => exact .inl rfl
  | manualApprovalRequired => exact .inr rfl
  | completed => exact absurd hstate hopen'.1
  | failed | cancelled =>
    rw [hstate] at hopen'
    cases hopen'.2
  | _ =>
    rw [hstate] at hfinal
    cases hfinal

/-- No two tasks of the execution have one id, or one type. -/
def Distinct (m : JobStateMachine) : Prop :=
  (m.tasks.map TaskExecution.id).Nodup ∧ (m.tasks.map TaskExecution.taskType).Nodup

theorem submitTask_open (hdist : m.Distinct)
    (hte : te ∈ (m.submitTask w taskType outcome now).machine.tasks) (hopen : te.Open) :
    te ∈ m.tasks ∧ ((m.submitTask w taskType outcome now).err = none → te.taskType ≠ taskType) ∨
      (m.submitTask w taskType outcome now).err = none ∧
        (∃ td, (m.submitTask w taskType outcome now).task = some (td, te)) ∧
        (te.taskState = paused ∨ te.taskState = manualApprovalRequired) := by
  rcases m.submitTask_cases w taskType outcome now with
    ⟨m', err, heq, hsub, -⟩ | ⟨td, -, ⟨old, hold, htype, hdone, heq⟩ | ⟨m', hsub, herase, heq⟩⟩ <;>
    rw [heq] at hte ⊢
  · exact .inl ⟨hsub.subset hte, nofun⟩
  · refine .inl ⟨hte, fun _ hsame => hopen.2.1 ?_⟩
    rwa [inj_on_of_nodup_map hdist.2 hte hold (hsame.trans htype.symm)]
  rcases runTask_open hte hopen with hkept | ⟨herr, htask, hstate⟩
  · refine .inl ⟨hsub.subset hkept, fun _ hsame => ?_⟩
    -- the earlier run of the task, which is this one, has been removed
    cases hget : m.getTask taskType with
    | none => simpa [hsame] using find?_eq_none.mp hget te (hsub.subset hkept)
    | some old =>
      have htype : old.taskType = taskType := by simpa using find?_some hget
      obtain rfl := inj_on_of_nodup_map hdist.2 (hsub.subset hkept)
        (mem_of_find?_eq_some hget) (hsame.trans htype.symm)
      have hgone : te.id ∉ (m.tasks.map TaskExecution.id).erase te.id := hdist.1.not_mem_erase
      rw [erase_eq_eraseP', eraseP_map] at hgone
      rw [herase te hget] at hkept
      exact hgone (List.mem_map_of_mem hkept)
  · exact .inr ⟨herr, ⟨td, htask⟩, hstate⟩

end JobStateMachine

theorem Routing.of_paused {jd : JobDefinition} {te : TaskExecution}
    (hstate : te.taskState = paused) (hnone : jd.getNextTask td te.taskState te.exitCode = none) :
    of jd taskType td te = .stop ErrorCodes.pauseJob (some te.errorMessage) := by
  rw [hstate] at hnone
  simp [of, hnone, last, hstate]

namespace Course

open Submission (startTask)

section Verdict

variable (w : Workflow) (s₀ : JobSupervisor) (loaded : List TaskExecution) (t : Course)

/-- The job is resumed at the tasks that are loaded with the execution and are open. -/
def Resumes : Prop :=
  ∀ te ∈ s₀.machine.tasks, te.Open → startTask w s₀ = .ok te.taskType

/-- The tasks of the execution are distinct, a PAUSED task that must not fail leads to no other one,
and the wait for an approval is saved. -/
def Decisive : Action → Prop
  | .taskDone outcome c =>
    t.supervisor.machine.Distinct ∧
    ∀ taskType ∈ t.supervisor.location.inFlight,
      ∀ submitted ∈ (t.supervisor.machine.submitTask w taskType outcome c.now).task,
        submitted.2.Open → submitted.2.taskState = paused →
          w.stored.getNextTask submitted.1 submitted.2.taskState submitted.2.exitCode = none
  | .proceed c =>
    ∀ taskType ∈ t.supervisor.location.approves,
      (JobExecutionRepository.updateJobRequestAndExecutionState t.supervisor.machine.db
        t.supervisor.machine.execution.id executing manualApprovalRequired taskType
        c.now).isOk = true
  | _ => True

/-- Only tasks that earlier runs have left open are open. -/
def Clean : Prop :=
  ∀ te ∈ t.supervisor.machine.tasks, te.Open → te ∈ loaded

/-- The loaded tasks that may still be open, until an attempt has submitted its first task. -/
def left : List TaskExecution :=
  if t.attempts.head? = some [] then loaded else []

def Standing : Prop :=
  match t.supervisor.location with
  | .start | .attempt | .retry _ => t.Clean loaded
  | .enter _ | .running _ => t.Clean (t.left loaded)
  | .evaluate none => t.Clean []
  | .evaluate (some _) => t.Clean loaded ∨ t.supervisor.errorCode ∈ finalErrorCodes
  | .finish none => t.AllCompleted
  | .returned _ => t.Reported
  | .approval _ | .finish (some _) | .cleanup .. | .cleaning .. | .conclude _ => True

structure Sound : Prop where
  unreported : t.supervisor.location.isReturned = true ∨
    t.supervisor.machine.execution.jobState.isTerminal = false
  standing : t.Standing loaded

end Verdict

variable {w : Workflow} {loaded : List TaskExecution} {t t' : Course} {c : Clock}

theorem Sound.reported (h : Sound loaded t) : t.Reported := by
  intro hdone
  rcases h.unreported with hret | hne
  · have hstand := h.standing
    unfold Standing at hstand
    cases hl : t.supervisor.location with
    | returned =>
      simp only [hl] at hstand
      exact hstand hdone
    | _ =>
      rw [hl] at hret
      cases hret
  · rw [hdone] at hne
    cases hne

theorem Clean.mono (h : t.Clean []) : t.Clean loaded :=
  fun te hte hopen => absurd (h te hte hopen) not_mem_nil

theorem Clean.allCompleted (h : t.Clean []) (hfail : t.supervisor.machine.failedTask = none) :
    t.AllCompleted := by
  intro te hte hallow
  by_contra hdone
  have hnot := find?_eq_none.mp hfail te hte
  have hopen : te.Open := by
    refine ⟨hallow, hdone, ?_⟩
    simpa [hallow] using hnot
  exact absurd (h te hte hopen) not_mem_nil

variable {s : JobSupervisor}

theorem conclude_ne_completed (h : s.machine.execution.jobState ≠ completed)
    (err : String) (c : Clock) : (s.conclude err c).machine.execution.jobState ≠ completed := by
  unfold conclude
  split
  · simpa [JobStateMachine.restartJobBackToPendingPaused] using h
  split
  · dsimp only
    rcases pauseJob_cases s.machine c with hsame | ⟨-, hpause, -⟩
    · rwa [hsame]
    rw [hpause]
    decide
  split
  · exact h
  unfold JobStateMachine.executionFailed
  split
  · exact h
  have hfail := (s.machine.failed_spec c executing false err
    (if s.errorCode = "" then ErrorCodes.jobExecute else s.errorCode)).execution
  intro hdone
  cases hfail.symm.trans hdone

variable {attempts : List (List String)}

theorem Sound.passes (h : Sound loaded t) (hdec : t.Decisive w (.proceed c))
    (hpass : JobSupervisor.Passes w c t.supervisor s) :
    Sound loaded
      ⟨s, if t.supervisor.location = .attempt then [] :: t.attempts else t.attempts⟩ := by
  have hstand := h.standing
  have hunrep := h.unreported.resolve_left hpass.not_returned
  refine ⟨.inr (by rwa [(Supervision.glides_of_passes hpass).execution]), ?_⟩
  unfold Standing at hstand
  unfold Decisive at hdec
  cases hpass with
  | opens hl =>
    simp only [hl, if_true] at hstand ⊢
    exact hstand
  | submits hl =>
    simp only [hl, reduceCtorEq, if_false] at hstand ⊢
    exact hstand
  | stops hl hterm =>
    rw [hunrep] at hterm
    cases hterm
  | repeats hl =>
    simp only [hl] at hstand
    exact hstand
  | succeeds hl hfail =>
    simp only [hl] at hstand
    exact hstand.allCompleted hfail
  | @fails err _ _ hl hverd hcode =>
    cases err with
    | none =>
      simp only [hl] at hstand
      exact hstand.mono
    | some =>
      simp only [hl] at hstand
      cases hverd
      exact hstand.resolve_right hcode
  | unasked hl hdb =>
    simp only [hl, Location.approves, mem_some_iff, forall_eq', hdb] at hdec
    cases hdec
  | unopened | givesUp | exhausted | cleansUp | closes | skips | cleans => trivial

theorem Sound.proceed (h : Sound loaded t)
    (hdec : t.Decisive w (.proceed c)) (he : t.supervisor.proceed w c = some s) :
    Sound loaded ⟨s, t.log (.proceed c)⟩ := by
  have hstand := h.standing
  have hunrep := h.unreported
  unfold Standing at hstand
  cases proceeds_of_proceed he with
  | launches hl hset =>
    simp only [hl] at hstand
    unfold setJobStatusToExecuting at hset
    split at hset <;> cases hset
    exact ⟨.inr rfl, hstand⟩
  | @unlaunched message =>
    refine ⟨.inl rfl, fun hdone => ?_⟩
    cases (t.supervisor.machine.failed_spec c ready false message "").execution.symm.trans hdone
  | passes hpass => exact h.passes hdec hpass
  | asks hl =>
    simp only [hl, isReturned, Bool.false_eq_true, false_or] at hunrep
    have hfinal : ErrorCodes.manualApprovalRequired ∈ finalErrorCodes := by decide
    exact ⟨.inr hunrep, .inr hfinal⟩
  | completes hl =>
    simp only [hl] at hstand
    refine ⟨.inl rfl, fun _ te hte => hstand te ?_⟩
    simpa [JobStateMachine.executionCompleted, publish, report] using hte
  | @concludes err hl =>
    simp only [hl, isReturned, Bool.false_eq_true, false_or] at hunrep
    obtain ⟨result, hret⟩ := t.supervisor.conclude_returned err c
    have hne := conclude_ne_completed (by rintro hdone; rw [hdone] at hunrep; cases hunrep) err c
    refine ⟨.inl (by rw [hret]; rfl), ?_⟩
    simp only [Standing, hret]
    exact fun hdone => absurd hdone hne

variable {outcome : TaskOutcome} {s₀ : JobSupervisor}

theorem Decisive.routing {te : TaskExecution} (hdec : t.Decisive w (.taskDone outcome c))
    (hl : t.supervisor.location = .running taskType)
    (htask : (t.supervisor.machine.submitTask w taskType outcome c.now).task = some (td, te))
    (hopen : te.Open) (hstate : te.taskState = paused ∨ te.taskState = manualApprovalRequired) :
    of w.stored taskType td te = .waitForApproval ∨
      of w.stored taskType td te = .stop ErrorCodes.pauseJob (some te.errorMessage) := by
  rcases hstate with hpause | hman
  · have hnone := hdec.2 taskType (by rw [hl]; rfl) (td, te) htask hopen hpause
    exact .inr (of_paused hpause hnone)
  · exact .inl (by simp [of, hman])

/-- A task that is open while another is under way has been loaded, and is that one's earlier
run. -/
theorem Sound.open_running (h : Sound s₀.machine.tasks t) (hinv : Inv w s₀ t)
    (hres : Resumes w s₀) (hl : t.supervisor.location = .running taskType) {te : TaskExecution}
    (hte : te ∈ t.supervisor.machine.tasks) (hopen : te.Open) :
    te ∈ s₀.machine.tasks ∧ te.taskType = taskType := by
  have hclean := h.standing
  have hloc := hinv.located
  simp only [Standing, hl] at hclean
  simp only [Located, hl] at hloc
  obtain ⟨-, path, rest, hatt, hnext⟩ := hloc
  have hleft := hclean te hte hopen
  unfold left at hleft
  split at hleft
  · next hfirst =>
    rw [hatt, head?_cons, some.injEq] at hfirst
    rw [hfirst] at hnext
    exact ⟨hleft, Except.ok.inj ((hres te hleft hopen).symm.trans hnext)⟩
  · cases hleft

theorem Sound.running (h : Sound s₀.machine.tasks t) (hinv : Inv w s₀ t) (hres : Resumes w s₀)
    (hl : t.supervisor.location = .running taskType)
    (hdec : t.Decisive w (.taskDone outcome c)) :
    Standing s₀.machine.tasks ⟨t.supervisor.taskDone w taskType outcome c, attempts⟩ := by
  have hcases : (Clean s₀.machine.tasks ⟨t.supervisor.taskDone w taskType outcome c, attempts⟩ ∧
        ((t.supervisor.machine.submitTask w taskType outcome c.now).err = none →
          Clean [] ⟨t.supervisor.taskDone w taskType outcome c, attempts⟩)) ∨
      (t.supervisor.machine.submitTask w taskType outcome c.now).err = none ∧
        ∃ td te, (t.supervisor.machine.submitTask w taskType outcome c.now).task = some (td, te) ∧
          (of w.stored taskType td te = .waitForApproval ∨
            of w.stored taskType td te = .stop ErrorCodes.pauseJob (some te.errorMessage)) := by
    by_contra hnot
    push Not at hnot
    have hopens : ∀ te ∈ (t.supervisor.taskDone w taskType outcome c).machine.tasks, te.Open →
        te ∈ s₀.machine.tasks ∧
          (t.supervisor.machine.submitTask w taskType outcome c.now).err ≠ none := by
      intro te hte hopen
      rw [taskDone_machine] at hte
      rcases JobStateMachine.submitTask_open hdec.1 hte hopen with
        ⟨hold, hgone⟩ | ⟨herr, ⟨td, htask⟩, hstate⟩
      · obtain ⟨hmem, htype⟩ := h.open_running hinv hres hl hold hopen
        exact ⟨hmem, fun herr => hgone herr htype⟩
      · have hnone := hnot.2 herr td te htask
        exact absurd (hdec.routing hl htask hopen hstate) (not_or.mpr hnone)
    obtain ⟨herr, hclean⟩ := hnot.1 fun te hte hopen => (hopens te hte hopen).1
    exact hclean fun te hte hopen => absurd herr (hopens te hte hopen).2
  cases taskDone_afterTask w t.supervisor taskType outcome c with
  | unsubmitted herr hloc =>
    simp only [Standing, hloc]
    refine .inl (hcases.resolve_right fun ⟨hnone, _⟩ => ?_).1
    cases herr.symm.trans hnone
  | waits hloc => simp [Standing, hloc]
  | goesOn herr htask hrout hloc =>
    simp only [Standing, hloc]
    refine ((hcases.resolve_right fun ⟨_, td, te, htask', hrout'⟩ => ?_).2 herr).mono
    cases htask.symm.trans htask'
    rcases hrout' with hrout' | hrout' <;> cases hrout.symm.trans hrout'
  | @stops td te code err herr htask hrout hcode hloc =>
    rcases hcases with ⟨-, hclean⟩ | ⟨-, td', te', htask', hrout'⟩
    · cases err <;> simp only [Standing, hloc]
      exacts [hclean herr, .inl (hclean herr).mono]
    · cases htask.symm.trans htask'
      rcases hrout' with hrout' | hrout' <;> cases hrout.symm.trans hrout'
      simp only [Standing, hloc, hcode]
      exact .inr (by decide)

theorem Sound.taskDone (h : Sound s₀.machine.tasks t) (hinv : Inv w s₀ t) (hres : Resumes w s₀)
    (hdec : t.Decisive w (.taskDone outcome c))
    (he : t.supervisor.step w (.taskDone outcome c) = some s) :
    Sound s₀.machine.tasks ⟨s, attempts⟩ := by
  have hjob := JobSupervisor.step_taskDone_sameJob he
  have hunrep := h.unreported
  cases hl : t.supervisor.location with
  | running | cleaning =>
    simp only [hl, isReturned, Bool.false_eq_true, false_or] at hunrep
    simp only [JobSupervisor.step, hl, some.injEq] at he
    refine ⟨.inr (by rwa [hjob.execution]), ?_⟩
    rw [← he]
    first | exact h.running hinv hres hl hdec | trivial
  | _ =>
    simp only [JobSupervisor.step, hl] at he
    cases he

theorem Sound.lifecycleEvent (h : Sound loaded t)
    (hstate : state ≠ cancelled) (he : t.supervisor.step w (.lifecycleEvent state c) = some s) :
    Sound loaded ⟨s, t.attempts⟩ := by
  simp only [JobSupervisor.step] at he
  split at he <;> cases he
  next hmay =>
  obtain rfl := hmay.2.resolve_left hstate
  change Sound loaded ⟨{ t.supervisor with machine := (t.supervisor.machine.pauseJob c).1 },
    t.attempts⟩
  rcases pauseJob_cases t.supervisor.machine c with hsame | ⟨-, hpause, htasks⟩
  · rw [hsame]
    exact ⟨h.unreported, h.standing⟩
  refine ⟨.inr (by rw [hpause]; rfl), ?_⟩
  have hstand := h.standing
  unfold Standing Clean Reported AllCompleted at hstand ⊢
  simp only [htasks]
  cases hl : t.supervisor.location with
  | returned =>
    intro hdone
    cases hpause.symm.trans hdone
  | evaluate err => cases err <;> simp only [hl] at hstand ⊢ <;> exact hstand
  | finish err => cases err <;> simp only [hl] at hstand ⊢; exact hstand
  | _ => simp only [hl] at hstand ⊢ <;> exact hstand

theorem Sound.step (h : Sound s₀.machine.tasks t) (hinv : Inv w s₀ t) (hres : Resumes w s₀)
    (huncan : Uncancelled action) (hdec : t.Decisive w action) (he : t.step w action = some t') :
    Sound s₀.machine.tasks t' := by
  obtain ⟨s, hs, rfl⟩ := map_eq_some_iff.mp he
  cases action with
  | proceed => exact h.proceed hdec hs
  | taskDone => exact h.taskDone hinv hres hdec hs
  | lifecycleEvent => exact h.lifecycleEvent huncan hs
  | database =>
    cases hs
    exact ⟨h.unreported, h.standing⟩

theorem reported_of_decisive (h : (system w s₀).ReachableWith
      (fun t a => Uncancelled a ∧ t.Decisive w a) t)
    (hinit : JobSupervisor.Initial s₀) (hres : Resumes w s₀) : t.Reported := by
  have hboth : Inv w s₀ t ∧ Sound s₀.machine.tasks t := by
    refine h.invariant (I := fun t => Inv w s₀ t ∧ Sound s₀.machine.tasks t) ?_ ?_
    · rintro s rfl
      refine ⟨inv_init hinit, .inr (by rw [hinit.execution]; rfl), ?_⟩
      simp only [Standing, hinit.location]
      exact fun te hte _ => hte
    · intro s a s' hs ha hstep
      exact ⟨hs.1.step ha.1 hstep, hs.2.step hs.1 hres ha.1 ha.2 hstep⟩
  exact hboth.2.reported

instance (m : JobStateMachine) : Decidable m.Distinct :=
  inferInstanceAs (Decidable (_ ∧ _))

instance (w : Workflow) (t : Course) : DecidablePred (t.Decisive w) := by
  rintro ⟨⟩ <;> dsimp only [Decisive] <;> infer_instance

instance : DecidablePred Reported := fun t => by
  unfold Reported AllCompleted
  infer_instance

/-- A deployment that asks for a pause by its exit code, and a task for when it is PAUSED. -/
def deployAndNotify : Workflow :=
  .ofDeclared (jobOf [
    { shellTask "deploy" "notify" with
      onExitCode := ((∅ : OnExitCode).insert "75" "PAUSE_JOB").insert "PAUSED" "notify" },
    shellTask "notify" ""]) (by decide)

def deployPauses : List Action :=
  [.proceed {}, .proceed {}, .proceed {},
    .taskDone { run := .started (.invoked [.response ⟨failed, "75", "", "", "", none⟩] "") } {},
    .proceed {}, .taskDone (replied completed) {}, .proceed {}, .proceed {}]

end Course

end Formicary

import Formicary.Model.TaskExecutions
import Formicary.Verification.Execution.Loading

/-! # Task executions while active and once finished

Every writer but one advances rows of the table without activating any, and leaves finished ones
alone. Saving a task is the exception: gorm answers a condition that fails with an insert over the
row, so it is the count of rows that the database reports which decides whether a finished task
stays as it is. -/

namespace Formicary.TaskExecutions

open RequestState Table Approval

variable {tasks tasks' : Table TaskExecution.id} {task t : TaskExecution} {db db' : Database}
  {replaced : ℕ} {op : Operation}

def Unique (tasks : Table TaskExecution.id) : Prop :=
  ∀ t ∈ tasks, ∀ t' ∈ tasks, t.active = true → t'.active = true →
    t.jobExecutionID = t'.jobExecutionID → t.taskType = t'.taskType → t = t'

def Immutable (tasks tasks' : Table TaskExecution.id) : Prop :=
  ∀ t ∈ tasks, t.taskState.isTerminal = true →
    ∃ t' ∈ tasks', t'.id = t.id ∧ t'.taskState = t.taskState

def Advances (t t' : TaskExecution) : Prop :=
  t'.jobExecutionID = t.jobExecutionID ∧ t'.taskType = t.taskType ∧
    (t'.active = true → t.active = true) ∧
      (t.taskState.isTerminal = true → t'.taskState = t.taskState)

theorem Advances.refl (t : TaskExecution) : Advances t t := ⟨rfl, rfl, id, fun _ => rfl⟩

theorem unique_of_evolves (h : tasks.Evolves Advances tasks') (hu : Unique tasks) :
    Unique tasks' := by
  intro a' ha' b' hb' hact hact' hjob htype
  obtain ⟨a, ha, hka, hja, hta, haa, _⟩ := h.origin a' ha'
  obtain ⟨b, hb, hkb, hjb, htb, hab, _⟩ := h.origin b' hb'
  have heq : a = b := hu a ha b hb (haa hact) (hab hact') (by rw [← hja, ← hjb, hjob])
    (by rw [← hta, ← htb, htype])
  exact eq_of_key_eq ha' hb' (by rw [← hka, ← hkb, heq])

theorem immutable_of_evolves (h : tasks.Evolves Advances tasks') : Immutable tasks tasks' := by
  intro t ht hend
  obtain ⟨t', ht', hk⟩ := h.kept t ht
  obtain ⟨t₀, ht₀, hk₀, _, _, _, hstate⟩ := h.origin t' ht'
  have heq : t₀ = t := eq_of_key_eq ht₀ ht (hk₀.trans hk)
  subst heq
  exact ⟨t', ht', hk, hstate hend⟩

theorem advances_deactivate (p : TaskExecution → Bool) (now : Time) :
    db.tasks.Evolves Advances (deactivate db p now) := by
  refine evolves_update Advances.refl fun _ _ _ => ?_
  exact ⟨rfl, rfl, nofun, fun _ => rfl⟩

theorem advances_of_open {t t' : TaskExecution} (hjob : t'.jobExecutionID = t.jobExecutionID)
    (htype : t'.taskType = t.taskType) (hact : t'.active = t.active)
    (hopen : t.taskState.isTerminal = false) : Advances t t' :=
  ⟨hjob, htype, fun h => hact ▸ h, fun hend => by simp [hopen] at hend⟩

theorem run_advances (h : ∀ task freshID contexts now, op ≠ .saveTask task freshID contexts now) :
    db.tasks.Evolves Advances (run db replaced op).tasks := by
  cases op with
  | saveTask task freshID contexts now => exact absurd rfl (h task freshID contexts now)
  | updateTaskState =>
    simp only [run, updateTaskState]
    split
    · next tasks hupd =>
      refine evolves_updateOne? Advances.refl (fun t _ hp => ?_) hupd
      have hopen : t.taskState.isTerminal = false := by
        simp only [Bool.and_eq_true] at hp
        simpa using hp.2
      exact advances_of_open rfl rfl rfl hopen
    · exact .refl Advances.refl _
  | deleteTask =>
    simp only [run, deleteTask]
    split
    · next tasks hupd =>
      refine evolves_updateOne? Advances.refl (fun t _ _ => ?_) hupd
      exact ⟨rfl, rfl, nofun, fun _ => rfl⟩
    · exact .refl Advances.refl _
  | get id now =>
    simp only [run]
    cases hget : JobExecutionRepository.get db id now with
    | error => exact .refl Advances.refl _
    | ok =>
      have hloads := JobExecutionRepository.get_eq_ok.mp hget
      simp only [Except.map, Lifecycle.commit, hloads.tables]
      exact advances_deactivate _ now
  | approve =>
    simp only [run, finalizeApproval]
    refine evolves_update Advances.refl fun t _ hp => ?_
    exact advances_of_open rfl rfl rfl (by simp_all [waitingTask]; rfl)
  | reject =>
    simp only [run, finalizeRejection]
    refine evolves_update Advances.refl fun t _ hp => ?_
    exact advances_of_open rfl rfl rfl (by simp_all [waitingTask]; rfl)
  | elsewhere => exact .refl Advances.refl _

def Puts (tasks : Table TaskExecution.id) (task : TaskExecution)
    (tasks' : Table TaskExecution.id) : Prop :=
  ∀ t, t ∈ tasks' ↔ t = task ∨ t ∈ tasks ∧ t.id ≠ task.id

theorem puts_insert? (h : tasks.insert? task = some tasks') : Puts tasks task tasks' := by
  have hfresh := (insert?_eq_some h).1
  intro t
  rw [mem_insert? h]
  exact or_congr_right ⟨fun ht => ⟨ht, hfresh t ht⟩, And.left⟩

variable {condition : TaskExecution → Bool}

theorem gormSave_puts : Puts tasks task (gormSave replaced tasks condition task).1 := by
  unfold gormSave
  split
  · next h =>
    obtain ⟨t, ht, hp⟩ := List.any_eq_true.mp h
    have hid : t.id = task.id := by simp_all
    exact fun _ => hid ▸ mem_set ht hid.symm
  split
  · next hins => exact puts_insert? hins
  · next hins =>
    obtain ⟨t, ht, hid⟩ := insert?_eq_none hins
    exact fun _ => hid ▸ mem_set ht hid.symm

theorem gormSave_refused (h : (gormSave replaced tasks condition task).2 = 1) (ht : t ∈ tasks)
    (hid : t.id = task.id) (href : condition t = false) : replaced = 1 := by
  unfold gormSave at h
  rw [if_neg] at h
  · split at h
    · next hins => exact absurd hid ((insert?_eq_some hins).1 t ht)
    · exact h
  · simp only [List.any_eq_true, not_exists, not_and]
    intro t' ht' hp
    have heq : t' = t := eq_of_key_eq ht' ht (by simp_all)
    simp_all

theorem gormSave_rows_one : (gormSave 1 tasks condition task).2 = 1 := by
  unfold gormSave
  split
  · rfl
  split <;> rfl

theorem saveTask_spec {freshID contexts : String} {now : Time}
    (h : saveTask db replaced task freshID contexts now = .ok db') :
    ∃ saved p, Puts (deactivate db p now) saved db'.tasks ∧ task.taskType ≠ "" ∧
      (∀ t, sameTask saved t = true → t.id ≠ saved.id → p t = true) ∧
      ((task.id = "" ∧ ∀ t ∈ deactivate db p now, t.id ≠ saved.id) ∨
        saved.id = task.id ∧ saved.taskState = task.taskState ∧ task.id ≠ "" ∧
          ∀ t ∈ deactivate db p now, t.id = task.id → t.taskState.isTerminal = true →
            replaced = 1) := by
  unfold saveTask at h
  split at h
  · cases h
  next htype =>
  split at h
  · next hnew =>
    dsimp only at h
    split at h <;> cases h
    next tasks hins =>
    exact ⟨_, _, puts_insert? hins, htype, fun _ ht _ => ht, .inl ⟨hnew, (insert?_eq_some hins).1⟩⟩
  · next hid =>
    dsimp only at h
    split at h <;> cases h
    next hrows =>
    refine ⟨_, _, gormSave_puts, htype, fun t ht hne => by simp_all, .inr ⟨rfl, rfl, hid, ?_⟩⟩
    intro t ht hid' hend
    have href : (!terminalStates.contains t.taskState) = false := by simpa using hend
    exact gormSave_refused hrows ht hid' href

theorem unique_of_puts (h : Puts tasks task tasks') (hu : Unique tasks)
    (hclear : ∀ t ∈ tasks, sameTask task t = true → t.id = task.id) : Unique tasks' := by
  intro a ha b hb hact hact' hjob htype
  rcases (h a).mp ha with rfl | ⟨ha, hne⟩
  · rcases (h b).mp hb with rfl | ⟨hb, hne⟩
    · rfl
    · exact absurd (hclear b hb (by simp [sameTask, *])) hne
  · rcases (h b).mp hb with rfl | ⟨hb, _⟩
    · exact absurd (hclear a ha (by simp [sameTask, *])) hne
    · exact hu a ha b hb hact hact' hjob htype

theorem unique_run (hu : Unique db.tasks) : Unique (run db replaced op).tasks := by
  by_cases hop : ∃ task freshID contexts now, op = .saveTask task freshID contexts now
  · obtain ⟨task, freshID, contexts, now, rfl⟩ := hop
    simp only [run]
    cases hsave : saveTask db replaced task freshID contexts now with
    | error => exact hu
    | ok =>
      obtain ⟨saved, p, hputs, _, hp, _⟩ := saveTask_spec hsave
      refine unique_of_puts hputs (unique_of_evolves (advances_deactivate p now) hu) ?_
      intro t ht hsame
      obtain ⟨a, ha, rfl⟩ := mem_update.mp ht
      by_contra hne
      by_cases hpa : p a = true
      · simp [hpa, sameTask] at hsame
      · rw [if_neg hpa] at hsame hne
        exact hpa (hp a hsame hne)
  · push Not at hop
    exact unique_of_evolves (run_advances hop) hu

/-- The saves that leave finished tasks alone: the task is not finished yet or keeps its state, or
the database does not count a replaced row as one. -/
def Respectful (replaced : ℕ) (db : Database) : Operation → Prop
  | .saveTask task _ _ _ =>
    task.taskType ≠ "" → task.id ≠ "" → replaced = 1 →
      ∀ t ∈ db.tasks, t.id = task.id → t.taskState.isTerminal = true → task.taskState = t.taskState
  | _ => True

theorem immutable_saveTask_iff {freshID contexts : String} {now : Time} :
    Immutable db.tasks (run db replaced (.saveTask task freshID contexts now)).tasks ↔
      Respectful replaced db (.saveTask task freshID contexts now) := by
  simp only [run, Respectful]
  constructor
  · intro him htype hid hone t ht heq hend
    subst hone
    have hok : ∃ db', saveTask db 1 task freshID contexts now = .ok db' := by
      simp [saveTask, htype, hid, gormSave_rows_one]
    obtain ⟨db', hsave⟩ := hok
    rw [hsave] at him
    obtain ⟨t', ht', hid', hstate⟩ := him t ht hend
    obtain ⟨saved, p, hputs, _, _, hcase⟩ := saveTask_spec hsave
    rcases hcase with ⟨hnew, _⟩ | ⟨hsaved, hkeeps, _⟩
    · exact absurd hnew hid
    rcases (hputs t').mp ht' with rfl | ⟨_, hne⟩
    · exact hkeeps.symm.trans hstate
    · exact absurd (hid'.trans (heq.trans hsaved.symm)) hne
  · intro hres
    cases hsave : saveTask db replaced task freshID contexts now with
    | error => exact immutable_of_evolves (.refl Advances.refl _)
    | ok =>
      obtain ⟨saved, p, hputs, htype, _, hcase⟩ := saveTask_spec hsave
      intro t ht hend
      obtain ⟨t₁, ht₁, hid₁, hstate₁⟩ := immutable_of_evolves (advances_deactivate p now) t ht hend
      by_cases heq : t₁.id = saved.id
      · rcases hcase with ⟨_, hfresh⟩ | ⟨hid, hstate, hne, hone⟩
        · exact absurd heq (hfresh t₁ ht₁)
        refine ⟨saved, (hputs saved).mpr (.inl rfl), heq.symm.trans hid₁, hstate.trans ?_⟩
        exact hres htype hne (hone t₁ ht₁ (heq.trans hid) (hstate₁ ▸ hend)) t ht
          (hid₁.symm.trans (heq.trans hid)) hend
      · exact ⟨t₁, (hputs t₁).mpr (.inr ⟨ht₁, heq⟩), hid₁, hstate₁⟩

theorem immutable_run_iff :
    Immutable db.tasks (run db replaced op).tasks ↔ Respectful replaced db op := by
  cases op with
  | saveTask => exact immutable_saveTask_iff
  | _ => exact iff_of_true (immutable_of_evolves (run_advances (by simp))) trivial

/-- Whatever the operations and their order, a task has one active execution at most; and finished
executions keep their states exactly in the runs that never save another state over one with a
database that counts the replaced row as one. -/
theorem taskExecutions_unique_and_immutable_iff (replaced : ℕ) :
    (∀ db, (system replaced).Reachable db → Unique db.tasks) ∧
      ∀ ops, (system replaced).Meets (fun db op => Immutable db.tasks (run db replaced op).tasks)
          Database.empty ops ↔
        (system replaced).Meets (Respectful replaced) Database.empty ops := by
  refine ⟨fun db h => ?_, fun ops => ?_⟩
  · induction h with
    | init hs => exact hs ▸ nofun
    | step _ _ he ih => exact Option.some.inj he ▸ unique_run ih
  · exact TransitionSystem.meets_congr (fun _ _ => immutable_run_iff) _ _

/-- A completed task that is saved as failed. -/
theorem completed_task_fails :
    ∃ db, (system 1).Reachable db ∧ ∃ t ∈ db.tasks, t.taskState = completed ∧
      ∃ op, ∃ t' ∈ (run db 1 op).tasks, t'.id = t.id ∧ t'.taskState = failed := by
  let task : TaskExecution :=
    ⟨"", "exec", "build", completed, false, "", "", "", "", "", 0, none, 0, false⟩
  refine ⟨run Database.empty 1 (.saveTask task "t1" "" 1), .step (.init rfl) trivial rfl,
    { task with id := "t1", updatedAt := 1, active := true }, mem_rows.mp (by decide), rfl,
    .saveTask { task with id := "t1", taskState := failed } "" "" 2,
    stamped { task with id := "t1", taskState := failed } 2,
    mem_rows.mp (by decide), rfl, rfl⟩

end Formicary.TaskExecutions

import Formicary.Model.JobExecutionRepository
import Formicary.Model.JobRequestRepository

/-! # Loading an execution

An execution is loaded with its active tasks. -/

theorem Formicary.JobRequestRepository.request_of_get {db : Database} {qc : QueryContext}
    {id : String} {req : JobRequest} (h : get db qc id = .ok req) : id ≠ "" ∧
      db.requests.find? id = some req ∧
      qc.orgElseUserWhere true req.userID req.organizationID = true := by
  unfold get at h
  split_ifs at h with hid
  split at h
  · split_ifs at h with hscope
    cases h
    exact ⟨hid, by assumption, hscope⟩
  · cases h

namespace Formicary.JobExecutionRepository

open RequestState List

variable {db db' : Database} {t : TaskExecution} {tasks : List TaskExecution} {taskType id : String}
  {now : Time}

theorem mem_activeTasks :
    t ∈ activeTasks db id ↔ t ∈ db.tasks ∧ t.jobExecutionID = id ∧ t.active = true := by
  rw [activeTasks, (perm_insertionSort _ _).mem_iff, mem_filter, Table.mem_rows]
  simp

theorem mem_of_latest (h : latest tasks taskType = some t) : t ∈ tasks ∧ t.taskType = taskType := by
  revert h
  refine foldlRecOn (motive := fun best => best = some t → t ∈ tasks ∧ t.taskType = taskType)
    tasks _ (by simp) ?_
  intro best ih a ha hbest
  split at hbest
  · next htype =>
    have hnew : some a = some t → t ∈ tasks ∧ t.taskType = taskType := by
      intro heq
      cases heq
      exact ⟨ha, beq_iff_eq.mp htype⟩
    split at hbest
    · exact hnew hbest
    split at hbest
    · exact hnew hbest
    · exact ih hbest
  · exact ih hbest

theorem latest_isSome (h : t ∈ tasks) : (latest tasks t.taskType).isSome := by
  induction tasks using reverseRecOn with
  | nil => cases h
  | append_singleton tasks a ih =>
    unfold latest at ih ⊢
    rw [foldl_append, foldl_cons, foldl_nil]
    split
    · split
      · rfl
      next prev hprev =>
      split
      · rfl
      rw [hprev]
      rfl
    · next htype =>
      rcases mem_append.mp h with h | h
      · exact ih h
      rw [mem_singleton.mp h] at htype
      simp at htype

theorem isLatest_of_sole (h : t ∈ tasks)
    (hsole : ∀ t' ∈ tasks, t'.taskType = t.taskType → t'.id = t.id) : isLatest tasks t = true := by
  obtain ⟨best, hbest⟩ := Option.isSome_iff_exists.mp (latest_isSome h)
  obtain ⟨hmem, htype⟩ := mem_of_latest hbest
  rw [isLatest, hbest, Option.map_some, hsole best hmem htype]
  exact beq_self_eq_true _

def deactivated (db : Database) (id : String) (t : TaskExecution) : Bool :=
  ((activeTasks db id).filter fun s => !isLatest (activeTasks db id) s).any fun s => s.id == t.id

/-- What loading an execution gives, and what it leaves of the tables. -/
structure Loads (db : Database) (id : String) (now : Time) (loaded : LoadedExecution)
    (db' : Database) : Prop where
  named : id ≠ ""
  execution : db.executions.find? id = some loaded.execution
  active : loaded.execution.active = true
  tasks : loaded.tasks = (activeTasks db id).filter (isLatest (activeTasks db id))
  tables : db' = { db with
    tasks := db.tasks.update (deactivated db id)
      (fun t => { t with active := false, updatedAt := now }) (fun _ => rfl) }

theorem get_eq_ok {loaded : LoadedExecution} :
    get db id now = .ok (loaded, db') ↔ Loads db id now loaded db' := by
  unfold get
  constructor
  · intro h
    split at h
    · cases h
    next hne =>
    split at h
    · cases h
    next execution hfind =>
    split at h <;> cases h
    next hact =>
    exact ⟨hne, hfind, hact, rfl, rfl⟩
  · rintro ⟨hne, hfind, hact, htasks, rfl⟩
    obtain ⟨execution, tasks⟩ := loaded
    simp only at hfind hact htasks
    rw [if_neg hne, hfind]
    simp only [hact, if_true, htasks]
    rfl

theorem Loads.mem_tasks {loaded : LoadedExecution} (h : Loads db id now loaded db')
    (ht : t ∈ loaded.tasks) : t ∈ db.tasks ∧ t.jobExecutionID = id := by
  rw [h.tasks] at ht
  exact (mem_activeTasks.mp (mem_filter.mp ht).1).imp_right And.left

theorem eq_of_isLatest {t' : TaskExecution} (ht : t ∈ db.tasks) (ht' : t' ∈ db.tasks)
    (h : isLatest tasks t = true) (h' : isLatest tasks t' = true)
    (htype : t'.taskType = t.taskType) : t' = t := by
  rw [isLatest, beq_iff_eq] at h h'
  rw [htype, h] at h'
  exact Table.eq_of_key_eq ht' ht (Option.some.inj h').symm

theorem deactivated_iff (ht : t ∈ db.tasks) : deactivated db id t = true ↔
      t.jobExecutionID = id ∧ t.active = true ∧ isLatest (activeTasks db id) t = false := by
  rw [deactivated, any_eq_true]
  constructor
  · rintro ⟨s, hs, hid⟩
    obtain ⟨hact, hstale⟩ := mem_filter.mp hs
    obtain ⟨hmem, hexec, ha⟩ := mem_activeTasks.mp hact
    rw [Table.eq_of_key_eq hmem ht (beq_iff_eq.mp hid)] at hexec ha hstale
    exact ⟨hexec, ha, by simpa using hstale⟩
  · rintro ⟨hexec, ha, hstale⟩
    exact ⟨t, mem_filter.mpr ⟨mem_activeTasks.mpr ⟨ht, hexec, ha⟩, by simp [hstale]⟩, by simp⟩

end Formicary.JobExecutionRepository

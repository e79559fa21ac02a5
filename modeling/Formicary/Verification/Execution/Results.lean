import Formicary.Model.JobLauncher
import Formicary.Library.Checked
import Formicary.Verification.Execution.Loading
import Formicary.Verification.Execution.Statements

/-! # The results an execution holds

Which tasks of an execution are COMPLETED when it is loaded, and what the statements of the
repository do to that: deleting an execution takes its results away, and no other statement takes or
adds any. -/

namespace Formicary.JobExecutionRepository

open RequestState Table JobExecution List

/-- The execution can be loaded, and its task of the type is COMPLETED. -/
def completedIn (db : Database) (id taskType : String) : Bool :=
  match get db id 0 with
  | .ok (loaded, _) => (loaded.getTask taskType).any fun t => t.taskState == completed
  | .error _ => false

def keptTasks (db : Database) (id : String) : List TaskExecution :=
  (activeTasks db id).filter (isLatest (activeTasks db id))

def Owned (db : Database) : Prop :=
  ∀ t ∈ db.tasks, ∃ e ∈ db.executions, e.id = t.jobExecutionID

variable {db db' : Database} {id taskType : String} {t : TaskExecution} {now : Time}

theorem mem_keptTasks : t ∈ keptTasks db id ↔
      t ∈ db.tasks ∧ t.jobExecutionID = id ∧ t.active = true ∧
        isLatest (activeTasks db id) t = true := by
  rw [keptTasks, mem_filter, mem_activeTasks, and_assoc, and_assoc]

theorem completedIn_eq (db : Database) (id taskType : String) : completedIn db id taskType =
      (decide (id ≠ "") && (db.executions.find? id).any active &&
        ((keptTasks db id).find? fun t => t.taskType == taskType).any
          fun t => t.taskState == completed) := by
  unfold completedIn get
  by_cases hid : id = ""
  · simp [hid]
  cases hfind : db.executions.find? id with
  | none => simp [hid]
  | some e => cases hact : e.active <;> simp [hid, hact, keptTasks, LoadedExecution.getTask]

theorem completedIn_congr (hexec : (db'.executions.find? id).any active =
      (db.executions.find? id).any active)
    (htasks : activeTasks db' id = activeTasks db id) :
    completedIn db' id taskType = completedIn db id taskType := by
  rw [completedIn_eq, completedIn_eq, hexec, keptTasks, keptTasks, htasks]

theorem completedIn_iff : completedIn db id taskType = true ↔
      id ≠ "" ∧ (db.executions.find? id).any active = true ∧
        ∃ t ∈ keptTasks db id, t.taskType = taskType ∧ t.taskState = completed := by
  rw [completedIn_eq, Bool.and_eq_true, Bool.and_eq_true, decide_eq_true_eq, and_assoc]
  refine and_congr_right fun _ => and_congr_right fun _ => ?_
  rw [Option.any_eq_true]
  constructor
  · rintro ⟨t, hfind, hdone⟩
    have htype : t.taskType = taskType := by simpa using find?_some hfind
    exact ⟨t, mem_of_find?_eq_some hfind, htype, beq_iff_eq.mp hdone⟩
  · rintro ⟨t, ht, htype, hdone⟩
    cases hfind : (keptTasks db id).find? fun t => t.taskType == taskType with
    | none => simpa [htype] using find?_eq_none.mp hfind t ht
    | some t' =>
      obtain ⟨hmem, _, _, hlate⟩ := mem_keptTasks.mp ht
      obtain ⟨hmem', _, _, hlate'⟩ := mem_keptTasks.mp (mem_of_find?_eq_some hfind)
      have htype' : t'.taskType = taskType := by simpa using find?_some hfind
      have heq := eq_of_isLatest hmem hmem' hlate hlate' (htype'.trans htype.symm)
      exact ⟨t', rfl, by simp [heq, hdone]⟩

variable {p : TaskExecution → Bool} {f : TaskExecution → TaskExecution}

theorem activeTasks_update (hf : ∀ t, (f t).id = t.id) (hoff : ∀ t, (f t).active = false)
    (hp : ∀ t ∈ db.tasks, t.jobExecutionID = id → p t = false)
    (htasks : db'.tasks = db.tasks.update p f hf) : activeTasks db' id = activeTasks db id := by
  rw [activeTasks, activeTasks, htasks, filter_update_of_unselected hf]
  · intro t ht hq
    have h := (Bool.and_eq_true _ _).mp hq
    exact hp t ht (beq_iff_eq.mp h.1)
  · simp [hoff]

variable {loaded : LoadedExecution}

section

variable (h : Loads db id now loaded db')
include h

theorem Loads.completedIn_iff_getTask :
    ((loaded.getTask taskType).any fun t => t.taskState == completed) =
      completedIn db id taskType := by
  rw [completedIn_eq, h.execution, Option.any_some, h.active, LoadedExecution.getTask, h.tasks]
  simp [h.named, keptTasks]

theorem Loads.mem_keptTasks_iff : t ∈ keptTasks db' id ↔ t ∈ keptTasks db id := by
  have hactive : ∀ t, t ∈ activeTasks db' id ↔ t ∈ keptTasks db id := by
    intro t
    rw [mem_activeTasks, mem_keptTasks, h.tables]
    constructor
    · rintro ⟨hmem, hid, hact⟩
      obtain ⟨t₀, ht₀, rfl⟩ := mem_map.mp hmem
      cases hd : deactivated db id t₀ with
      | true => simp [hd] at hact
      | false =>
        simp only [hd, Bool.false_eq_true, if_false] at hid hact ⊢
        refine ⟨ht₀, hid, hact, ?_⟩
        by_contra hstale
        have := (deactivated_iff ht₀).mpr ⟨hid, hact, by simpa using hstale⟩
        rw [hd] at this
        cases this
    · rintro ⟨hmem, hid, hact, hlate⟩
      have hd : deactivated db id t = false := by
        by_contra hd
        have := ((deactivated_iff hmem).mp (by simpa using hd)).2.2
        rw [hlate] at this
        cases this
      exact ⟨mem_map.mpr ⟨t, hmem, by simp [hd]⟩, hid, hact⟩
  rw [keptTasks, mem_filter, hactive]
  refine and_iff_left_of_imp fun ht => isLatest_of_sole ((hactive t).mpr ht) ?_
  intro t' ht' htype
  obtain ⟨hmem, _, _, hlate⟩ := mem_keptTasks.mp ht
  obtain ⟨hmem', _, _, hlate'⟩ := mem_keptTasks.mp ((hactive t').mp ht')
  rw [eq_of_isLatest hmem hmem' hlate hlate' htype]

theorem Loads.completedIn_eq (id' taskType : String) :
    completedIn db' id' taskType = completedIn db id' taskType := by
  have hexec : db'.executions = db.executions := by rw [h.tables]
  by_cases hid : id' = id
  · subst hid
    rw [Bool.eq_iff_iff, completedIn_iff, completedIn_iff, hexec]
    simp only [h.mem_keptTasks_iff]
  refine completedIn_congr (by rw [hexec]) (activeTasks_update (fun _ => by rfl) (fun _ => rfl) ?_
    (congrArg Database.tasks h.tables))
  intro t ht htid
  by_contra hd
  have := ((deactivated_iff ht).mp (by simpa using hd)).1
  exact hid (htid.symm.trans this)

end

theorem Owned.of_rows (h : Owned db)
    (htasks : ∀ t' ∈ db'.tasks, ∃ t ∈ db.tasks, t'.jobExecutionID = t.jobExecutionID)
    (hexec : ∀ e ∈ db.executions, ∃ e' ∈ db'.executions, e'.id = e.id) : Owned db' := by
  intro t' ht'
  obtain ⟨t, ht, hid⟩ := htasks t' ht'
  obtain ⟨e, he, heid⟩ := h t ht
  obtain ⟨e', he', heid'⟩ := hexec e he
  exact ⟨e', he', (heid'.trans heid).trans hid.symm⟩

theorem exists_of_mem_update {tasks : Table TaskExecution.id} {hf : ∀ t, (f t).id = t.id}
    (ht : t ∈ tasks.update p f hf) (hkeep : ∀ t, (f t).jobExecutionID = t.jobExecutionID) :
    ∃ t₀ ∈ tasks, t.id = t₀.id ∧ t.jobExecutionID = t₀.jobExecutionID := by
  obtain ⟨t₀, ht₀, rfl⟩ := mem_update.mp ht
  refine ⟨t₀, ht₀, ?_⟩
  split
  · exact ⟨hf t₀, hkeep t₀⟩
  · exact ⟨rfl, rfl⟩

theorem Loads.origin (h : Loads db id now loaded db') (ht : t ∈ db'.tasks) :
    ∃ t₀ ∈ db.tasks, t.id = t₀.id ∧ t.jobExecutionID = t₀.jobExecutionID := by
  have htasks : db'.tasks = db.tasks.update (deactivated db id)
      (fun t => { t with active := false, updatedAt := now }) (fun _ => rfl) := by rw [h.tables]
  rw [htasks] at ht
  exact exists_of_mem_update ht fun _ => rfl

theorem Loads.owned (h : Loads db id now loaded db') (ho : Owned db) : Owned db' := by
  refine ho.of_rows (fun t ht => ?_) (fun e he => ?_)
  · obtain ⟨t₀, ht₀, _, hexec⟩ := h.origin ht
    exact ⟨t₀, ht₀, hexec⟩
  · rw [h.tables]
    exact ⟨e, he, rfl⟩

section

variable (h : delete db id now = .ok db')
include h

theorem delete_eq_ok : ∃ loaded db₁, Loads db id now loaded db₁ ∧
      db'.tasks = db₁.tasks.update (fun t => t.active && loaded.tasks.any fun s => s.id == t.id)
        (fun t => { t with active := false, updatedAt := now }) (fun _ => rfl) ∧
      db'.executions = db.executions.update (fun e => e.id == id && e.active)
        (fun e => { e with active := false, updatedAt := now }) (fun _ => rfl) := by
  obtain ⟨⟨loaded, db₁⟩, hget, h⟩ := Checked.bind_eq_ok.mp h
  have hload := get_eq_ok.mp hget
  have hexec : db₁.executions = db.executions := by rw [hload.tables]
  simp only at h
  split at h <;> cases h
  next executions hupd =>
  rw [← hexec]
  exact ⟨loaded, db₁, hload, rfl, (updateOne?_eq_some_iff.mp hupd).2⟩

theorem delete_completedIn (id' taskType : String) :
    completedIn db' id' taskType = (completedIn db id' taskType && decide (id' ≠ id)) := by
  obtain ⟨loaded, db₁, hload, htasks, hexecs⟩ := delete_eq_ok h
  by_cases hid : id' = id
  · subst hid
    have hoff : (db'.executions.find? id').any active = false := by
      rw [hexecs, find?_update, hload.execution]
      have hkey := (find?_eq_some_iff.mp hload.execution).2
      simp [hkey, hload.active]
    rw [completedIn_eq, hoff]
    simp
  rw [← hload.completedIn_eq id' taskType]
  simp only [ne_eq, hid, not_false_eq_true, decide_true, Bool.and_true]
  have hsame : db'.executions.find? id' = db₁.executions.find? id' := by
    rw [hexecs, hload.tables]
    refine find?_update_of_unselected fun e _ hkey => ?_
    simp [hkey, hid]
  refine completedIn_congr (by rw [hsame])
    (activeTasks_update (fun _ => by rfl) (fun _ => rfl) ?_ htasks)
  intro t ht htid
  rw [Bool.and_eq_false_iff]
  refine .inr (any_eq_false.mpr fun s hs hst => hid ?_)
  obtain ⟨hmem, hsid⟩ := hload.mem_tasks hs
  obtain ⟨t₀, ht₀, hid₀, hexec₀⟩ := hload.origin ht
  have heq := eq_of_key_eq hmem ht₀ ((beq_iff_eq.mp hst).trans hid₀)
  rw [← htid, hexec₀, ← heq, hsid]

theorem delete_owned (ho : Owned db) : Owned db' := by
  obtain ⟨loaded, db₁, hload, htasks, hexecs⟩ := delete_eq_ok h
  refine (hload.owned ho).of_rows (fun t ht => ?_) (fun e he => ?_)
  · rw [htasks] at ht
    obtain ⟨t₀, ht₀, _, hexec⟩ := exists_of_mem_update ht fun _ => rfl
    exact ⟨t₀, ht₀, hexec⟩
  · rw [hload.tables] at he
    rw [hexecs]
    exact ⟨_, mem_map.mpr ⟨e, he, rfl⟩, by split <;> rfl⟩

end

variable {execution : JobExecution}

section

variable (h : save db execution = .ok db')
include h

theorem save_absent : db.executions.find? execution.id = none := by
  obtain ⟨executions, hins, -⟩ := save_eq_ok h
  exact find?_eq_none_iff.mpr (insert?_eq_some hins).1

theorem save_completedIn (ho : Owned db) (id' taskType : String) :
    completedIn db' id' taskType = completedIn db id' taskType := by
  have habsent := save_absent h
  obtain ⟨executions, hins, rfl⟩ := save_eq_ok h
  have hact : activeTasks { db with executions := executions } id' = activeTasks db id' := rfl
  by_cases hid : id' = execution.id
  · have hnone : db.executions.find? id' = none := hid ▸ habsent
    have hempty : keptTasks { db with executions := executions } id' = [] := by
      refine eq_nil_iff_forall_not_mem.mpr fun t ht => ?_
      obtain ⟨hmem, htid, _⟩ := mem_activeTasks.mp (mem_filter.mp ht).1
      obtain ⟨e, he, heid⟩ := ho t hmem
      exact find?_eq_none_iff.mp hnone e he (heid.trans htid)
    rw [completedIn_eq, completedIn_eq, hempty, hnone]
    simp
  · refine completedIn_congr ?_ hact
    rw [find?_insert? hins, if_neg hid]

theorem save_owned (ho : Owned db) : Owned db' := by
  obtain ⟨executions, hins, rfl⟩ := save_eq_ok h
  refine ho.of_rows (fun t ht => ⟨t, ht, rfl⟩) (fun e he => ?_)
  exact ⟨e, (mem_insert? hins).mpr (.inr he), rfl⟩

end

theorem resetStateToReady_completedIn (h : resetStateToReady db id now = .ok db')
    (id' taskType : String) : completedIn db' id' taskType = completedIn db id' taskType := by
  rw [(resetStateToReady_eq_ok h).2]
  refine completedIn_congr ?_ rfl
  rw [find?_update, Option.any_map]
  refine congrArg (Option.any · _) (funext fun e => ?_)
  show (active ∘ _) e = _
  simp only [Function.comp_apply]
  split <;> rfl

theorem resetStateToReady_owned (h : resetStateToReady db id now = .ok db') (ho : Owned db) :
    Owned db' := by
  rw [(resetStateToReady_eq_ok h).2]
  exact ho.of_rows (fun t ht => ⟨t, ht, rfl⟩)
    (fun e he => ⟨_, mem_map.mpr ⟨e, he, rfl⟩, by split <;> rfl⟩)

end Formicary.JobExecutionRepository

import Formicary.Library.Checked
import Formicary.Model.JobDefinitionRepository

/-! # What validation ensures

The facts about a job definition that its validation checks, read off the passes one by one. -/

namespace Formicary

open Checked TaskDefinition List

theorem TaskDefinition.validate_taskType {td td' : TaskDefinition} (h : td.validate = .ok td') :
    td'.taskType = td.taskType ∧ td'.taskType ≠ "" := by
  unfold validate at h
  dsimp only at h
  repeat' split at h
  all_goals first | cases h; exact ⟨rfl, by assumption⟩ | cases h

namespace JobDefinition

variable {jd stored : JobDefinition} {t first : TaskDefinition} {onExitTypes : List String}

theorem validateTaskExitCodes_names {tasks done : List TaskDefinition}
    (h : validateTaskExitCodes tasks = .ok done) : ∀ t ∈ done, t.taskType ≠ "" := by
  obtain ⟨done, hdone, h⟩ := bind_eq_ok.mp h
  split at h <;> cases h
  refine foldlM_invariant (P := fun _ done => ∀ t ∈ done, t.taskType ≠ "") (by simp) ?_ hdone
  intro seen done t done' hP hstep u hu
  obtain ⟨t', ht', hstep⟩ := bind_eq_ok.mp hstep
  split at hstep <;> cases hstep
  rcases mem_append.mp hu with hu | hu
  · exact hP u hu
  have hname := (validate_taskType ht').2
  rw [mem_singleton.mp hu]
  unfold allowFailureTarget
  split <;> exact hname

theorem validateTaskExitCodes_types {tasks done : List TaskDefinition}
    (h : validateTaskExitCodes tasks = .ok done) : done.map taskType = tasks.map taskType := by
  obtain ⟨done, hdone, h⟩ := bind_eq_ok.mp h
  split at h <;> cases h
  refine foldlM_invariant (P := fun seen done => done.map taskType = seen.map taskType) rfl ?_ hdone
  intro seen done t done' hP hstep
  obtain ⟨t', ht', hstep⟩ := bind_eq_ok.mp hstep
  split at hstep <;> cases hstep
  have htype : t'.addOutcomes.allowFailureTarget.taskType = t.taskType := by
    rw [← (validate_taskType ht').1, allowFailureTarget]
    split <;> rfl
  simp [hP, htype]

def isReserved (next : String) : Bool :=
  Text.startsWith next "ERR_" || reservedExitCodes.contains next

variable {next : String}

theorem validateTarget_reserved (hempty : next ≠ "")
    (hres : isReserved next = true) : jd.validateTarget t next = .ok none := by
  unfold validateTarget
  rw [if_neg hempty]
  exact if_pos hres

theorem validateTarget_unreserved (hres : isReserved next = false) {name} :
    jd.validateTarget t next = .ok name ↔
      next ≠ "" ∧ (jd.getTask next).isSome ∧ name = some next := by
  unfold validateTarget
  by_cases hempty : next = ""
  · simp [hempty]
  rw [if_neg hempty]
  refine (iff_of_eq (congrArg (· = _) (if_neg (?_ : ¬ isReserved next = true)))).trans ?_
  · simp [hres]
  · cases jd.getTask next with
    | none => simp [hempty]
    | some => simp [hempty, eq_comm]

theorem exists_validateTarget : (∃ name, jd.validateTarget t next = .ok name) ↔
      next ≠ "" ∧ (isReserved next = true ∨ (jd.getTask next).isSome) := by
  cases hres : isReserved next with
  | false => simp [validateTarget_unreserved hres]
  | true =>
    by_cases hempty : next = ""
    · simp [validateTarget, hempty]
    · simp [validateTarget_reserved hempty hres, hempty]

variable {name : String}

theorem validateTarget_eq_task
    (h : jd.validateTarget t next = .ok (some name)) : next = name ∧ isReserved next = false := by
  cases hres : isReserved next with
  | false =>
    obtain ⟨_, _, hname⟩ := (validateTarget_unreserved hres).mp h
    exact ⟨(Option.some.inj hname).symm, rfl⟩
  | true =>
    by_cases hempty : next = ""
    · simp [validateTarget, hempty] at h
    rw [validateTarget_reserved hempty hres] at h
    cases h

theorem mem_validateReachableTasks (h : jd.validateReachableTasks = .ok onExitTypes) :
    name ∈ onExitTypes ↔ isReserved name = false ∧ ∃ t ∈ jd.tasks, name ∈ t.onExitCode.targets := by
  obtain ⟨rows, hrows, hresult⟩ := bind_eq_ok.mp h
  cases hresult
  rw [reduceOption_mem_iff, mem_flatten]
  constructor
  · rintro ⟨row, hrow, hname⟩
    obtain ⟨t, ht, hok⟩ := (mem_mapM hrows).mp hrow
    obtain ⟨next, hnext, hok⟩ := (mem_mapM hok).mp hname
    obtain ⟨rfl, hres⟩ := validateTarget_eq_task hok
    exact ⟨hres, t, ht, hnext⟩
  · rintro ⟨hres, t, ht, hname⟩
    obtain ⟨row, hrow⟩ := exists_mapM.mp ⟨rows, hrows⟩ t ht
    obtain ⟨found, hfound⟩ := exists_mapM.mp ⟨row, hrow⟩ name hname
    refine ⟨row, (mem_mapM hrows).mpr ⟨t, ht, hrow⟩, (mem_mapM hrow).mpr ⟨name, hname, ?_⟩⟩
    obtain ⟨_, _, rfl⟩ := (validateTarget_unreserved hres).mp hfound
    exact hfound

theorem validateFirstTask_spec (h : jd.validateFirstTask onExitTypes = .ok first) :
    ∀ t, t ∈ jd.tasks ∧ t.taskType ∉ onExitTypes ↔ t = first := by
  obtain ⟨found, hfound, hres⟩ := bind_eq_ok.mp h
  -- what the loop has found is what is left of the tasks seen
  have hseen : ∀ t, t ∈ jd.tasks ∧ t.taskType ∉ onExitTypes ↔ some t = found := by
    refine foldlM_invariant (P := fun seen found =>
      ∀ t, t ∈ seen ∧ t.taskType ∉ onExitTypes ↔ some t = found) (by simp) ?_ hfound
    intro seen found x found' hP hstep t
    unfold firstTaskStep at hstep
    split at hstep
    · next hx =>
      cases hstep
      rw [← hP t, mem_append, mem_singleton]
      constructor
      · rintro ⟨ht | rfl, hnot⟩
        · exact ⟨ht, hnot⟩
        · exact absurd (by simpa using hx) hnot
      · rintro ⟨ht, hnot⟩
        exact ⟨.inl ht, hnot⟩
    · next hx =>
      split at hstep <;> cases hstep
      next hnone =>
      obtain rfl : found = none := by simpa using hnone.1
      have hx' : x.taskType ∉ onExitTypes := by simpa using hx
      rw [mem_append, mem_singleton, Option.some.injEq, or_and_right, hP t]
      constructor
      · rintro (hsome | ⟨rfl, _⟩)
        · cases hsome
        · rfl
      · rintro rfl
        exact .inr ⟨rfl, hx'⟩
  cases found with
  | none => cases hres
  | some =>
    cases hres
    simpa using hseen

theorem getFirstTask_spec (h : jd.getFirstTask = .ok first) (t : TaskDefinition) :
    t = first ↔ t ∈ jd.tasks ∧
      (isReserved t.taskType = false → ∀ u ∈ jd.tasks, t.taskType ∉ u.onExitCode.targets) := by
  obtain ⟨onExitTypes, htypes, hfirst⟩ := bind_eq_ok.mp h
  rw [← validateFirstTask_spec hfirst t, mem_validateReachableTasks htypes]
  simp

theorem firstError_eq_ok {checks : List (Option Error)} :
    firstError checks = .ok () ↔ ∀ check ∈ checks, check = none := by
  induction checks with
  | nil => simp [firstError]
  | cons check checks ih =>
    cases check with
    | none => simpa [firstError] using ih
    | some => simp [firstError]

/-- What validation ensures of the definition that it returns. -/
structure Accepted (stored : JobDefinition) : Prop where
  jobType : stored.jobType.utf8ByteSize ≤ 100
  names : ∀ t ∈ stored.tasks, t.taskType ≠ ""
  first : ∃ first, stored.getFirstTask = .ok first

theorem accepted_of_validate (h : jd.validate = .ok stored) : stored.Accepted := by
  obtain ⟨hchecks, h⟩ := seq_eq_ok.mp h
  obtain ⟨tasks, -, h⟩ := bind_eq_ok.mp h
  obtain ⟨-, h⟩ := seq_eq_ok.mp h
  obtain ⟨done, hdone, h⟩ := bind_eq_ok.mp h
  obtain ⟨-, h⟩ := seq_eq_ok.mp h
  obtain ⟨first, hfirst, h⟩ := bind_eq_ok.mp h
  obtain ⟨-, h⟩ := seq_eq_ok.mp h
  cases h
  refine ⟨?_, validateTaskExitCodes_names hdone, first, hfirst⟩
  have hsize := firstError_eq_ok.mp hchecks
    (errorIf (jd.jobType.utf8ByteSize > 100) "jobType is too big") (by simp)
  by_contra hbig
  simp [errorIf, Nat.lt_of_not_le hbig] at hsize

theorem validate_eq (h : jd.validate = .ok stored) :
    ∃ tasks, tasks.map taskType = jd.tasks.map taskType ∧ stored = { jd with
      tasks := tasks
      maxConcurrency := if jd.maxConcurrency ≤ 1 then 3 else jd.maxConcurrency } := by
  obtain ⟨-, h⟩ := seq_eq_ok.mp h
  obtain ⟨tasks, htasks, h⟩ := bind_eq_ok.mp h
  obtain ⟨-, h⟩ := seq_eq_ok.mp h
  obtain ⟨done, hdone, h⟩ := bind_eq_ok.mp h
  obtain ⟨-, h⟩ := seq_eq_ok.mp h
  obtain ⟨first, -, h⟩ := bind_eq_ok.mp h
  obtain ⟨-, h⟩ := seq_eq_ok.mp h
  cases h
  refine ⟨done, ?_, rfl⟩
  rw [validateTaskExitCodes_types hdone,
    map_eq_of_mapM (fun _ _ h => (validate_taskType h).1) htasks]

end JobDefinition

variable {row loaded : JobDefinitionRow}

theorem JobDefinitionRow.postProcessJob_eq (h : row.postProcessJob = .ok loaded) :
    ∃ tasks, loaded = { row with
      definition := { row.definition with
        tasks := tasks
        maxConcurrency := if row.maxConcurrency ≤ 1 then 3 else row.maxConcurrency } } := by
  obtain ⟨-, h⟩ := seq_eq_ok.mp h
  obtain ⟨definition, hvalid, h⟩ := bind_eq_ok.mp h
  obtain ⟨tasks, -, rfl⟩ := JobDefinition.validate_eq hvalid
  cases h
  exact ⟨tasks, rfl⟩

theorem Workflow.stored_accepted (w : Workflow) : w.stored.Accepted :=
  JobDefinition.accepted_of_validate w.accepted

end Formicary

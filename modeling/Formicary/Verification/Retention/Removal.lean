import Formicary.Model.RetentionManager

/-! # What a purge deletes

Every step of a run deletes some requests, and with them exactly the rows that refer to them. -/

namespace Formicary

open Table List

namespace History

variable {h h₁ h₂ : History} {q q₁ q₂ Q Q₁ Q₂ : JobRequest → Prop}

def RequestGone (h : History) (q : JobRequest → Prop) (id : String) : Prop :=
  ∃ req ∈ h.requests, req.id = id ∧ q req

def ExecutionGone (h : History) (q : JobRequest → Prop) (id : String) : Prop :=
  ∃ execution ∈ h.executions, execution.id = id ∧ h.RequestGone q execution.jobRequestID

def TaskGone (h : History) (q : JobRequest → Prop) (id : String) : Prop :=
  ∃ task ∈ h.tasks, task.id = id ∧ h.ExecutionGone q task.jobExecutionID

/-- The requests are gone with every row that refers to them, and no other row is. -/
structure Removes (h : History) (q : JobRequest → Prop) (h' : History) : Prop where
  requests : ∀ req, req ∈ h'.requests ↔ req ∈ h.requests ∧ ¬ q req
  executions : ∀ execution, execution ∈ h'.executions ↔
    execution ∈ h.executions ∧ ¬ h.RequestGone q execution.jobRequestID
  tasks : ∀ task, task ∈ h'.tasks ↔ task ∈ h.tasks ∧ ¬ h.ExecutionGone q task.jobExecutionID
  votes : ∀ vote, vote ∈ h'.votes ↔ vote ∈ h.votes ∧ ¬ h.TaskGone q vote.taskExecutionID
  deadlines : ∀ deadline, deadline ∈ h'.deadlines ↔
    deadline ∈ h.deadlines ∧ ¬ h.TaskGone q deadline.taskExecutionID
  resourceUses : ∀ use, use ∈ h'.resourceUses ↔ use ∈ h.resourceUses ∧ ¬ h.TaskGone q use.ownerID
  taskContexts : ∀ context, context ∈ h'.taskContexts ↔
    context ∈ h.taskContexts ∧ ¬ h.TaskGone q context.ownerID
  logs : ∀ log, log ∈ h'.logs ↔ log ∈ h.logs ∧ ¬ h.ExecutionGone q log.ownerID
  jobContexts : ∀ context, context ∈ h'.jobContexts ↔
    context ∈ h.jobContexts ∧ ¬ h.ExecutionGone q context.ownerID
  artifacts : ∀ artifact, artifact ∈ h'.artifacts ↔
    artifact ∈ h.artifacts ∧ ¬ h.RequestGone q artifact.ownerID
  params : ∀ param, param ∈ h'.params ↔ param ∈ h.params ∧ ¬ h.RequestGone q param.ownerID

variable {id : String}

theorem Removes.congr (hr : Removes h q₁ h₁) (hq : ∀ req ∈ h.requests, q₁ req ↔ q₂ req) :
    Removes h q₂ h₁ := by
  have hreq : h.RequestGone q₁ = h.RequestGone q₂ := selects_congr hq
  have hex : h.ExecutionGone q₁ = h.ExecutionGone q₂ :=
    selects_congr fun _ _ => by rw [hreq]
  have htask : h.TaskGone q₁ = h.TaskGone q₂ :=
    selects_congr fun _ _ => by rw [hex]
  constructor
  case requests =>
    intro req
    rw [hr.requests]
    exact and_congr_right fun hmem => not_congr (hq req hmem)
  all_goals simp only [← hreq, ← hex, ← htask]
  exacts [hr.executions, hr.tasks, hr.votes, hr.deadlines, hr.resourceUses, hr.taskContexts,
    hr.logs, hr.jobContexts, hr.artifacts, hr.params]

theorem Removes.refl (h : History) : Removes h (fun _ => False) h := by
  have hreq : ∀ id, ¬ h.RequestGone (fun _ => False) id := fun _ =>
    not_selects fun _ _ => id
  have hex : ∀ id, ¬ h.ExecutionGone (fun _ => False) id := fun _ =>
    not_selects fun _ _ => hreq _
  have htask : ∀ id, ¬ h.TaskGone (fun _ => False) id := fun _ =>
    not_selects fun _ _ => hex _
  constructor <;> simp [hreq, hex, htask]

section

variable (hr : Removes h q₁ h₁)

include hr

variable {id : String}

theorem Removes.requestGone_iff :
    h.RequestGone (fun req => q₁ req ∨ q₂ req) id ↔ h.RequestGone q₁ id ∨ h₁.RequestGone q₂ id :=
  selects_or hr.requests fun _ => Iff.rfl

theorem Removes.executionGone_iff : h.ExecutionGone (fun req => q₁ req ∨ q₂ req) id ↔
      h.ExecutionGone q₁ id ∨ h₁.ExecutionGone q₂ id :=
  selects_or hr.executions fun _ => hr.requestGone_iff

theorem Removes.taskGone_iff :
    h.TaskGone (fun req => q₁ req ∨ q₂ req) id ↔ h.TaskGone q₁ id ∨ h₁.TaskGone q₂ id :=
  selects_or hr.tasks fun _ => hr.executionGone_iff

theorem Removes.trans (hr' : Removes h₁ q₂ h₂) : Removes h (fun req => q₁ req ∨ q₂ req) h₂ where
  requests req := by rw [hr'.requests, hr.requests, not_or, and_assoc]
  executions _ := by rw [hr'.executions, hr.executions, hr.requestGone_iff, not_or, and_assoc]
  tasks _ := by rw [hr'.tasks, hr.tasks, hr.executionGone_iff, not_or, and_assoc]
  votes _ := by rw [hr'.votes, hr.votes, hr.taskGone_iff, not_or, and_assoc]
  deadlines _ := by rw [hr'.deadlines, hr.deadlines, hr.taskGone_iff, not_or, and_assoc]
  resourceUses _ := by rw [hr'.resourceUses, hr.resourceUses, hr.taskGone_iff, not_or, and_assoc]
  taskContexts _ := by rw [hr'.taskContexts, hr.taskContexts, hr.taskGone_iff, not_or, and_assoc]
  logs _ := by rw [hr'.logs, hr.logs, hr.executionGone_iff, not_or, and_assoc]
  jobContexts _ := by
    rw [hr'.jobContexts, hr.jobContexts, hr.executionGone_iff, not_or, and_assoc]
  artifacts _ := by rw [hr'.artifacts, hr.artifacts, hr.requestGone_iff, not_or, and_assoc]
  params _ := by rw [hr'.params, hr.params, hr.requestGone_iff, not_or, and_assoc]

end

variable {req : JobRequest}

theorem Removes.length_lt (hr : Removes h q h₁) (hmem : req ∈ h.requests)
    (hq : q req) : h₁.requests.rows.length < h.requests.rows.length := by
  have hnot : req ∉ h₁.requests.rows := fun hreq => ((hr.requests req).mp hreq).2 hq
  have hnodup : (req :: h₁.requests.rows).Nodup :=
    nodup_cons.mpr ⟨hnot, h₁.requests.nodup.of_map JobRequest.id⟩
  have hsub : (req :: h₁.requests.rows) ⊆ h.requests.rows :=
    cons_subset.mpr ⟨hmem, fun other hother => ((hr.requests other).mp hother).1⟩
  exact (subperm_of_subset hnodup hsub).length_le

theorem deleteTasks_nil (h : History) : h.deleteTasks [] = h := by
  simp [deleteTasks, deleteWhere]

theorem deleteExecutions_nil (h : History) : h.deleteExecutions [] = h := by
  simp [deleteExecutions, deleteWhere]

theorem removes_delete {reqIDs execIDs taskIDs : List String}
    (hreqs : ∀ id, id ∈ reqIDs ↔ h.RequestGone q id)
    (hexecs : ∀ id, id ∈ execIDs ↔ h.ExecutionGone q id)
    (htasks : ∀ id, id ∈ taskIDs ↔ h.TaskGone q id) :
    Removes h q (((h.deleteTasks taskIDs).deleteExecutions execIDs).deleteRequests reqIDs) := by
  constructor <;> intro row <;>
    simp only [deleteRequests, deleteExecutions, deleteTasks, mem_deleteWhere,
      mem_filter, contains_eq_mem, Bool.not_eq_true', decide_eq_false_iff_not,
      hreqs, hexecs, htasks]
  -- the rows themselves, which are selected by their keys
  all_goals exact and_congr_right fun hmem => not_congr (selects_key hmem)

theorem deleteRequests_nil (h : History) : h.deleteRequests [] = h := by
  simp [deleteRequests, deleteWhere]

section

variable {jobType : String} {state : RequestState} {olderThan : Time}

def batch (h : History) (jobType : String) (state : RequestState) (olderThan : Time)
    (limit : ℕ) : List JobRequest :=
  (h.requests.rows.filter (selects jobType state olderThan)).take limit

variable {limit : ℕ} {reqs : List JobRequest}
  (hreqs : h.batch jobType state olderThan limit = reqs)
include hreqs

theorem mem_batch (hmem : req ∈ reqs) :
    req ∈ h.requests ∧ selects jobType state olderThan req = true := by
  rw [← hreqs] at hmem
  exact mem_filter.mp (mem_of_mem_take hmem)

theorem mem_batch_of_length_lt (hlt : reqs.length < limit) (hmem : req ∈ h.requests)
    (hsel : selects jobType state olderThan req = true) : req ∈ reqs := by
  have hlen : (h.requests.rows.filter (selects jobType state olderThan)).length ≤ limit := by
    rw [← hreqs, batch, length_take] at hlt
    omega
  rw [← hreqs, batch, take_of_length_le hlen]
  exact mem_filter.mpr ⟨hmem, hsel⟩

theorem affected_batch :
    (h.requests.affected fun req => (reqs.map JobRequest.id).contains req.id) = reqs.length := by
  have hsub : (reqs.map JobRequest.id).Sublist (h.requests.rows.map JobRequest.id) := by
    rw [← hreqs]
    exact ((take_sublist _ _).trans filter_sublist).map _
  generalize hids : reqs.map JobRequest.id = ids at hsub
  have hperm : ((h.requests.rows.map JobRequest.id).filter ids.contains).Perm ids := by
    rw [perm_ext_iff_of_nodup (h.requests.nodup.filter _) (hsub.nodup h.requests.nodup)]
    intro id
    rw [mem_filter, contains_iff_mem]
    exact and_iff_right_of_imp fun hmem => hsub.subset hmem
  calc (h.requests.affected fun req => ids.contains req.id)
      = (h.requests.rows.map JobRequest.id).countP ids.contains := by
        rw [countP_map]
        rfl
    _ = ((h.requests.rows.map JobRequest.id).filter ids.contains).length :=
        countP_eq_length_filter
    _ = ids.length := hperm.length_eq
    _ = reqs.length := by rw [← hids, length_map]

variable (hterm : state.isTerminal = true) (hlimit : 0 < limit)
include hterm hlimit

theorem purgeOldRequests_eq : h.purgeOldRequests jobType state olderThan limit =
      let reqIDs := reqs.map JobRequest.id
      let execIDs := (h.executions.rows.filter fun execution =>
        reqIDs.contains execution.jobRequestID).map JobExecution.id
      let taskIDs := (h.tasks.rows.filter fun task =>
        execIDs.contains task.jobExecutionID).map TaskExecution.id
      .ok (reqs.length,
        ((h.deleteTasks taskIDs).deleteExecutions execIDs).deleteRequests reqIDs) := by
  have hlimit' : (if (limit : ℤ) ≤ 0 then 500 else (limit : ℤ).toNat) = limit := by
    rw [if_neg (by omega), Int.toNat_natCast]
  simp only [purgeOldRequests, hterm, Bool.not_true, Bool.false_eq_true, if_false, hlimit']
  rw [← batch, hreqs]
  by_cases hempty : reqs = []
  · simp [hempty, deleteTasks_nil, deleteExecutions_nil, deleteRequests_nil]
  rw [if_neg (by simpa using hempty)]
  -- nothing is deleted for an empty list, whether or not the list is checked first
  have hnil : ∀ {β : Type} {f : List String → β} {x : β} (ids : List String), f [] = x →
      (if ids = [] then x else f ids) = f ids := by
    intro β f x ids hx
    split
    · next hids => rw [hids, hx]
    · rfl
  have htasks := fun ids => hnil ids (f := fun ids => (h.tasks.rows.filter fun task =>
    ids.contains task.jobExecutionID).map TaskExecution.id) (x := []) (by simp)
  simp only [htasks, hnil _ (deleteTasks_nil h), hnil _ (deleteExecutions_nil _)]
  exact congrArg (fun n => Except.ok (n, _)) (affected_batch hreqs)

theorem removes_batch : ∃ h', h.purgeOldRequests jobType state olderThan limit =
      .ok (reqs.length, h') ∧ Removes h (· ∈ reqs) h' := by
  refine ⟨_, purgeOldRequests_eq hreqs hterm hlimit, ?_⟩
  have hids : ∀ id, id ∈ reqs.map JobRequest.id ↔ h.RequestGone (· ∈ reqs) id := by
    intro id
    rw [mem_map]
    constructor
    · rintro ⟨req, hmem, hid⟩
      exact ⟨req, (mem_batch hreqs hmem).1, hid, hmem⟩
    · rintro ⟨req, -, hid, hmem⟩
      exact ⟨req, hmem, hid⟩
  have hexecs := fun id => h.executions.mem_map_filter id fun execution _ =>
    contains_iff_mem.trans (hids execution.jobRequestID)
  have htasks := fun id => h.tasks.mem_map_filter id fun task _ =>
    contains_iff_mem.trans (hexecs task.jobExecutionID)
  exact removes_delete hids hexecs htasks

end

def Clears (sound : Prop) (h : History) (Q : JobRequest → Prop) (h' : History) : Prop :=
  ∃ q, (∀ req, q req → Q req) ∧ (sound → ∀ req ∈ h.requests, Q req → q req) ∧ Removes h q h'

variable {sound : Prop}

theorem Clears.refl (h : History) : Clears sound h (fun _ => False) h :=
  ⟨fun _ => False, fun _ hfalse => hfalse, fun _ _ _ hfalse => hfalse, Removes.refl h⟩

theorem clears_none (h : History) (hno : ¬ sound) : Clears sound h Q h :=
  ⟨fun _ => False, fun _ hfalse => hfalse.elim, fun hsound => absurd hsound hno, Removes.refl h⟩

theorem Clears.mono (hc : Clears sound h Q₁ h₁) (hto : ∀ req, Q₁ req → Q₂ req)
    (hof : ∀ req ∈ h.requests, Q₂ req → Q₁ req) : Clears sound h Q₂ h₁ := by
  obtain ⟨q, hle, hall, hr⟩ := hc
  exact ⟨q, fun req hq => hto req (hle req hq),
    fun hsound req hmem hQ => hall hsound req hmem (hof req hmem hQ), hr⟩

theorem Clears.trans (hc : Clears sound h Q₁ h₁) (hc' : Clears sound h₁ Q₂ h₂) :
    Clears sound h (fun req => Q₁ req ∨ Q₂ req) h₂ := by
  obtain ⟨q₁, hle₁, hall₁, hr₁⟩ := hc
  obtain ⟨q₂, hle₂, hall₂, hr₂⟩ := hc'
  refine ⟨fun req => q₁ req ∨ q₂ req, fun req hq => hq.imp (hle₁ req) (hle₂ req), ?_, hr₁.trans hr₂⟩
  intro hsound req hmem hQ
  by_cases hq : q₁ req
  · exact .inl hq
  have hnot : ¬ Q₁ req := fun hQ₁ => hq (hall₁ hsound req hmem hQ₁)
  have hmem₁ : req ∈ h₁.requests := (hr₁.requests req).mpr ⟨hmem, hq⟩
  exact .inr (hall₂ hsound req hmem₁ (hQ.resolve_left hnot))

theorem Clears.removes (hc : Clears sound h Q h₁) (hsound : sound) : Removes h Q h₁ := by
  obtain ⟨q, hle, hall, hr⟩ := hc
  exact hr.congr fun req hmem => ⟨hle req, hall hsound req hmem⟩

theorem Clears.of_gone (hc : Clears sound h Q h₁) (hmem : req ∈ h.requests)
    (hgone : req ∉ h₁.requests) : Q req := by
  obtain ⟨q, hle, -, hr⟩ := hc
  by_contra hnot
  exact hgone ((hr.requests req).mpr ⟨hmem, fun hq => hnot (hle req hq)⟩)

theorem clears_foldl {α σ : Type*} {step : σ → α → σ} {history : σ → History}
    {Q : α → JobRequest → Prop}
    (hstep : ∀ s a, Clears sound (history s) (Q a) (history (step s a))) (xs : List α) (s : σ) :
    Clears sound (history s) (fun req => ∃ a ∈ xs, Q a req) (history (xs.foldl step s)) := by
  induction xs generalizing s with
  | nil => exact (Clears.refl (history s)).mono (by simp) (by simp)
  | cons a xs ih =>
    have hrest := (hstep s a).trans (ih (step s a))
    apply hrest.mono
    · intro req hQ
      simpa using hQ
    · intro req _ hQ
      simpa using hQ

end History

end Formicary

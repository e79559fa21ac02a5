import Formicary.Model.JobStatsRegistry

/-! # What the calls to the registry do

Every call moves the counter of one key by at most one and touches one id of one user. -/

namespace Formicary

def JobRequestSummary.identity (req : JobRequestSummary) :
    String × String × String × String × String :=
  (req.id, req.jobType, req.jobVersion, req.userID, req.organizationID)

namespace JobStatsRegistry

variable {r r' : JobStatsRegistry} {req : JobRequestSummary}

section Counts

variable {counts : FinMap String (FinSet String)} {owner id o i : String}

theorem counted_insert (ids : FinSet String) :
    counted (counts.insert owner ids) o = if o = owner then ids else counted counts o := by
  unfold counted
  rw [FinMap.lookup_insert_eq]
  split <;> rfl

theorem mem_counted_incrCount (ho : o ≠ "") :
    i ∈ counted (incrCount counts owner id) o ↔ o = owner ∧ i = id ∨ i ∈ counted counts o := by
  unfold incrCount
  split
  · next h => simp [h, ho]
  rw [counted_insert]
  split
  · next h => simp [h]
  · next h => simp [h]

theorem mem_counted_decrCount (ho : o ≠ "") :
    i ∈ counted (decrCount counts owner id) o ↔ i ∈ counted counts o ∧ ¬ (o = owner ∧ i = id) := by
  unfold decrCount
  split
  · rw [counted_insert]
    split
    · next h => simp [h, and_comm]
    · next h => simp [h]
  next hguard =>
  refine (and_iff_left_of_imp ?_).symm
  rintro hi ⟨rfl, rfl⟩
  have hempty : (counted counts o).entries = [] := by
    simpa [ho, FinMap.size] using hguard
  rw [AList.mem_keys, AList.keys, hempty] at hi
  cases hi

end Counts

/-- What a call means for the run of a request. -/
inductive Call where
  | silent
  | started
  | ended
  deriving DecidableEq, Repr

def Call.delta : Call → Int32
  | silent => 0
  | started => 1
  | ended => -1

def Shifts (r r' : JobStatsRegistry) (key : String) (call : Call) : Prop :=
  ∀ k, r'.getExecutionCount k = r.getExecutionCount k + if k = key then call.delta else 0

def Enters (r r' : JobStatsRegistry) (userID id : String) (call : Call) : Prop :=
  ∀ u i, u ≠ "" → (i ∈ counted r'.countByUser u ↔
    match call with
    | .silent => i ∈ counted r.countByUser u
    | .started => u = userID ∧ i = id ∨ i ∈ counted r.countByUser u
    | .ended => i ∈ counted r.countByUser u ∧ ¬ (u = userID ∧ i = id))

/-- The call is made for the request of the summary. -/
structure Calls (r r' : JobStatsRegistry) (req : JobRequestSummary) (call : Call) : Prop where
  shifts : Shifts r r' req.getUserJobTypeKey call
  enters : Enters r r' req.userID req.id call

theorem Shifts.refl (r : JobStatsRegistry) (key : String) : Shifts r r key .silent := by
  intro k
  simp [Call.delta]

theorem Shifts.silent_key {key key' : String} (h : Shifts r r' key .silent) :
    Shifts r r' key' .silent := by
  intro k
  simpa [Call.delta] using h k

theorem Shifts.trans_silent {r'' : JobStatsRegistry} {key : String} {call : Call}
    (h : Shifts r r' key call) (h' : Shifts r' r'' key .silent) : Shifts r r'' key call := by
  intro k
  rw [h' k, h k]
  simp [Call.delta]

theorem Calls.refl (r : JobStatsRegistry) (req : JobRequestSummary) : Calls r r req .silent :=
  ⟨Shifts.refl r _, fun _ _ _ => Iff.rfl⟩

theorem Calls.of_identity {req' : JobRequestSummary} {call : Call} (h : Calls r r' req call)
    (hid : req.identity = req'.identity) : Calls r r' req' call := by
  simp only [JobRequestSummary.identity, Prod.mk.injEq] at hid
  obtain ⟨h₁, h₂, h₃, h₄, h₅⟩ := hid
  have hkey : req.getUserJobTypeKey = req'.getUserJobTypeKey := by
    rw [JobRequestSummary.getUserJobTypeKey, h₂, h₃, h₄, h₅]
    rfl
  exact ⟨hkey ▸ h.shifts, h₁ ▸ h₄ ▸ h.enters⟩

theorem getExecutionCount_updateStat (f : JobStats → JobStats) (k : String) :
    (r.updateStat req f).getExecutionCount k =
      if k = req.getUserJobTypeKey then (f (r.createOrFindStat req)).executingJobs
      else r.getExecutionCount k := by
  by_cases h : k = req.getUserJobTypeKey <;>
    simp [updateStat, getExecutionCount, FinMap.lookup_insert_eq, h]

theorem executingJobs_createOrFindStat :
    (r.createOrFindStat req).executingJobs = r.getExecutionCount req.getUserJobTypeKey := by
  unfold createOrFindStat getExecutionCount
  cases r.statsByJobType.lookup req.getUserJobTypeKey <;> rfl

theorem shifts_updateStat (r : JobStatsRegistry) (req : JobRequestSummary)
    {f : JobStats → JobStats} (call : Call)
    (hf : ∀ j, (f j).executingJobs = j.executingJobs + call.delta) :
    Shifts r (r.updateStat req f) req.getUserJobTypeKey call := by
  intro k
  rw [getExecutionCount_updateStat]
  split
  · next h => rw [hf, executingJobs_createOrFindStat, h]
  · simp

@[simp] theorem getExecutionCount_removePendingJob (k : String) :
    (r.removePendingJob req).getExecutionCount k = r.getExecutionCount k := by
  unfold removePendingJob
  split <;> rfl

@[simp] theorem countByUser_removePendingJob :
    (r.removePendingJob req).countByUser = r.countByUser := by
  unfold removePendingJob
  split <;> rfl

@[simp] theorem countByUser_updateStat (f : JobStats → JobStats) :
    (r.updateStat req f).countByUser = r.countByUser := rfl

@[simp] theorem getExecutionCount_incrUserOrgCount (k : String) :
    (r.incrUserOrgCount req).getExecutionCount k = r.getExecutionCount k := rfl

@[simp] theorem getExecutionCount_decrUserOrgCount (k : String) :
    (r.decrUserOrgCount req).getExecutionCount k = r.getExecutionCount k := rfl

@[simp] theorem countByUser_incrUserOrgCount :
    (r.incrUserOrgCount req).countByUser = incrCount r.countByUser req.userID req.id := rfl

@[simp] theorem countByUser_decrUserOrgCount :
    (r.decrUserOrgCount req).countByUser = decrCount r.countByUser req.userID req.id := rfl

theorem started_calls (now : Time) : Calls r (r.started req now) req .started := by
  refine ⟨fun k => ?_, fun u i hu => ?_⟩
  · have hshift := shifts_updateStat r req (f := (·.started now)) .started (fun _ => rfl) k
    simpa [started] using hshift
  · simpa [started] using mem_counted_incrCount hu

theorem ended_calls (r : JobStatsRegistry) (req : JobRequestSummary) {f : JobStats → JobStats}
    (hf : ∀ j, (f j).executingJobs = j.executingJobs - 1) : Calls r (r.ended req f) req .ended := by
  refine ⟨fun k => ?_, fun u i hu => ?_⟩
  · have hshift := shifts_updateStat r req .ended (fun j => by rw [hf, Int32.sub_eq_add_neg]; rfl) k
    simpa [ended] using hshift
  · simpa [ended] using mem_counted_decrCount hu

theorem cancelled_calls : Calls r (r.cancelled req) req .ended := ended_calls r req fun _ => rfl

theorem succeeded_calls : Calls r (r.succeeded req) req .ended :=
  { ended_calls r req (f := JobStats.succeeded) fun _ => rfl with }

theorem failed_calls : Calls r (r.failed req) req .ended :=
  { ended_calls r req (f := JobStats.failed) fun _ => rfl with }

theorem paused_calls : Calls r (r.paused req) req .ended :=
  { ended_calls r req (f := JobStats.paused) fun _ => rfl with }

theorem pending_shifts (r : JobStatsRegistry) (req : JobRequestSummary) :
    Shifts r (r.pending req false) req.getUserJobTypeKey .silent := by
  intro k
  have hsame : (r.pending req false).getExecutionCount k = r.getExecutionCount k := rfl
  simp [hsame, Call.delta]

theorem pending_enters (r : JobStatsRegistry) (req : JobRequestSummary) :
    Enters r (r.pending req false) req.userID req.id .ended := by
  intro u i hu
  simpa [pending, addPendingJob] using mem_counted_decrCount hu

end JobStatsRegistry

end Formicary

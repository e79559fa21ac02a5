import Formicary.Library.Checked
import Formicary.Model.JobResource

/-! # Quotas of job resources -/

namespace Formicary.JobResourceRepository

open Table

/-- The total of the positive values of the active uses. -/
def granted (uses : JobResourceRepository) (id : String) : ℤ :=
  (uses.rows.map fun use =>
    if use.jobResourceID = id ∧ use.active then max use.value 0 else 0).sum

/-- What a call on a resource owes: the positive values stay within the quota, a refusal leaves the
uses alone, and a use that is granted reports what remains. -/
def Kept (resource : JobResource) (uses : JobResourceRepository) (call : Call) : Prop :=
  (∀ uses' ∈ (system resource).step uses call, uses'.granted resource.id ≤ resource.quota) ∧
  ∀ use freshID, call = .allocate use freshID →
    match uses.allocate resource use freshID with
    | .error _ => (system resource).step uses call = some uses
    | .ok (uses', use) => use.remainingQuota = resource.quota - uses'.usedQuota resource.id

/-- The use is valid, its id is new, and with its value the sum stays within the quota. -/
def Passes (resource : JobResource) (uses : JobResourceRepository) (use : JobResourceUse)
    (freshID : String) : Prop :=
  use.validate = .ok () ∧ uses.find? freshID = none ∧
    uses.usedQuota resource.id + use.value ≤ resource.quota

/-- A use that passes uses up half of the quota with the active ones. -/
def Fits (resource : JobResource) (uses : JobResourceRepository) : Call → Prop
  | .allocate use freshID => Passes resource uses use freshID →
      2 * (uses.usedQuota resource.id + use.value) = resource.quota
  | .deallocate _ => True

instance (resource : JobResource) (uses : JobResourceRepository) :
    DecidablePred (Fits resource uses) := fun a => by
  cases a <;> dsimp only [Fits, Passes] <;> infer_instance

variable {resource : JobResource} {uses uses' : JobResourceRepository} {use use' : JobResourceUse}
  {freshID : String}

theorem insert?_quota (h : uses.insert? { use with
      id := freshID, jobResourceID := resource.id, active := true } = some uses') :
    uses'.usedQuota resource.id = uses.usedQuota resource.id + use.value ∧
      uses'.granted resource.id = uses.granted resource.id + max use.value 0 := by
  simp [usedQuota, granted, (insert?_eq_some h).2, add_comm]

theorem passes_of_allocate (h : uses.allocate resource use freshID = .ok (uses', use')) :
    Passes resource uses use freshID ∧ use'.remainingQuota = uses'.usedQuota resource.id ∧
      uses.insert? { use with id := freshID, jobResourceID := resource.id, active := true } =
        some uses' := by
  obtain ⟨_, hvalid, h⟩ := Checked.bind_eq_ok.mp h
  dsimp only at h
  split at h
  · cases h
  next hins =>
  split at h <;> cases h
  next hle =>
  rw [(insert?_quota hins).1] at hle
  exact ⟨⟨hvalid, find?_eq_none_iff.mpr (insert?_eq_some hins).1, by omega⟩, rfl, hins⟩

theorem not_passes_of_allocate {err : Error}
    (h : uses.allocate resource use freshID = .error err) : ¬ Passes resource uses use freshID := by
  rintro ⟨hvalid, hfind, hle⟩
  obtain ⟨uses', hins⟩ := exists_insert? (t := uses) (a := { use with
    id := freshID, jobResourceID := resource.id, active := true }) hfind
  rw [← (insert?_quota hins).1, ← Int.not_lt] at hle
  simp [allocate, hvalid, hins, hle, bind, Except.bind, pure, Except.pure] at h

/-- Nothing is granted a negative value, and no more than half of the quota is in use. -/
structure Halved (resource : JobResource) (uses : JobResourceRepository) : Prop where
  nonneg : ∀ use ∈ uses.rows, use.jobResourceID = resource.id ∧ use.active → 0 ≤ use.value
  half : 2 * uses.usedQuota resource.id ≤ resource.quota

theorem Halved.granted_eq (h : Halved resource uses) :
    uses.granted resource.id = uses.usedQuota resource.id := by
  unfold granted usedQuota
  congr 1
  refine List.map_congr_left fun use huse => ?_
  split
  · next hactive => exact max_eq_left (h.nonneg use huse hactive)
  · rfl

theorem Halved.deallocate (h : Halved resource uses) (id : String) :
    Halved resource ((uses.deallocate id).toOption.getD uses) := by
  unfold JobResourceRepository.deallocate
  split
  · next uses' hupd =>
    rw [(updateOne?_eq_some_iff.mp hupd).2]
    simp only [Except.toOption, Option.getD_some]
    constructor
    · intro use huse hactive
      obtain ⟨old, hold, rfl⟩ := List.mem_map.mp huse
      split at hactive
      · simp at hactive
      · next hother =>
        rw [if_neg hother]
        exact h.nonneg old hold hactive
    · refine le_trans (mul_le_mul_of_nonneg_left ?_ (by decide)) h.half
      simp only [usedQuota, update, List.map_map]
      refine List.sum_le_sum fun use huse => ?_
      rw [Function.comp_apply]
      split
      · simp only [Bool.false_eq_true, and_false, if_false]
        split
        · next hactive => exact h.nonneg use huse hactive
        · exact le_rfl
      · exact le_rfl
  · exact h

theorem Halved.step {call : Call} (h : Halved resource uses) (hfits : Fits resource uses call)
    (he : (system resource).step uses call = some uses') : Halved resource uses' := by
  cases call with
  | deallocate id =>
    cases he
    exact h.deallocate id
  | allocate use freshID =>
    cases hall : uses.allocate resource use freshID with
    | error =>
      simp only [system, hall, Except.toOption, Option.elim_none] at he
      exact Option.some.inj he ▸ h
    | ok =>
      simp only [system, hall, Except.toOption, Option.elim_some] at he
      cases he
      obtain ⟨hpass, -, hins⟩ := passes_of_allocate hall
      have hsum := (insert?_quota hins).1
      have hhalf := h.half
      have hfit := hfits hpass
      refine ⟨?_, by omega⟩
      rw [(insert?_eq_some hins).2]
      exact List.forall_mem_cons.mpr ⟨fun _ => by dsimp only; omega, h.nonneg⟩

theorem Halved.kept_iff (h : Halved resource uses) (hquota : 0 ≤ resource.quota) (call : Call) :
    Kept resource uses call ↔ Fits resource uses call := by
  have hhalf := h.half
  cases call with
  | deallocate id =>
    refine iff_of_true ⟨?_, nofun⟩ trivial
    rintro _ ⟨⟩
    have hnext := (h.deallocate id).half
    rw [(h.deallocate id).granted_eq]
    omega
  | allocate use freshID =>
    cases he : uses.allocate resource use freshID with
    | error =>
      simp [Kept, Fits, system, he, Except.toOption, not_passes_of_allocate he, h.granted_eq]
      omega
    | ok =>
      obtain ⟨hpass, hrem, hins⟩ := passes_of_allocate he
      obtain ⟨hsum, hgranted⟩ := insert?_quota hins
      simp [Kept, Fits, system, he, Except.toOption, hpass, hrem, hsum, hgranted, h.granted_eq]
      omega

def lock (quota : ℤ) : JobResource := ⟨"lock", quota⟩

def useOf (value : ℤ) : JobResourceUse := ⟨"", "lock", 1, "t1", "u1", value, false, some 60, 0⟩

end Formicary.JobResourceRepository

import Formicary.Verification.Definition.Validation
import Formicary.Verification.Supervisor.Machine

/-! # Versions of job definitions

The versions of a definition are numbered by counting the rows that the caller of a save can see. -/

namespace Formicary.JobDefinitionRepository

open JobDefinitionRow Table List

/-- The stored versions of a tenant's definition. -/
def family (repo : JobDefinitionRepository) (tenant : Tenant) (jobType : String) :
    List JobDefinitionRow :=
  repo.rows.filter fun row => row.tenant == tenant && row.jobType == jobType

theorem mem_family {repo : JobDefinitionRepository} {tenant : Tenant} {jobType : String}
    {row : JobDefinitionRow} :
    row ∈ family repo tenant jobType ↔
      row ∈ repo ∧ row.tenant = tenant ∧ row.jobType = jobType := by
  simp [family, mem_rows]

/-- The versions are `0, 1, …, n - 1`, and at most one row is active, which has the highest. -/
structure Linear (rows : List JobDefinitionRow) : Prop where
  versions : (rows.map version).Perm ((List.range rows.length).map Nat.cast)
  sole : (rows.filter active).length ≤ 1
  highest : ∀ row ∈ rows, row.active = true → ∀ other ∈ rows, other.version ≤ row.version

/-- An update that keeps what identifies a row and makes none active. -/
structure Fades (f : JobDefinitionRow → JobDefinitionRow) : Prop where
  id : ∀ row, (f row).id = row.id := by intro; rfl
  tenant : ∀ row, (f row).tenant = row.tenant := by intro; rfl
  definition : ∀ row, (f row).definition = row.definition := by intro; rfl
  version : ∀ row, (f row).version = row.version := by intro; rfl
  semVersion : ∀ row, (f row).semVersion = row.semVersion := by intro; rfl
  active : ∀ row, (f row).active = true → row.active = true := by simp

variable {rows : List JobDefinitionRow} {row : JobDefinitionRow}
  {f : JobDefinitionRow → JobDefinitionRow}

theorem Fades.jobType (hf : Fades f) (row : JobDefinitionRow) : (f row).jobType = row.jobType :=
  congrArg JobDefinition.jobType (hf.definition row)

theorem linear_nil : Linear [] := ⟨by simp, by simp, by simp⟩

section

variable (h : Linear rows)
include h

theorem Linear.version_lt (hrow : row ∈ rows) : 0 ≤ row.version ∧ row.version < rows.length := by
  have hmem := h.versions.mem_iff.mp (mem_map_of_mem hrow)
  obtain ⟨n, hn, heq⟩ := mem_map.mp hmem
  rw [mem_range] at hn
  omega

theorem Linear.exists_latest (hne : rows ≠ []) : ∃ row ∈ rows, row.version = rows.length - 1 := by
  have hpos := length_pos_iff.mpr hne
  have hlast : ((rows.length - 1 : ℕ) : ℤ) ∈ rows.map version := by
    refine h.versions.mem_iff.mpr (mem_map_of_mem (mem_range.mpr ?_))
    omega
  obtain ⟨row, hrow, hver⟩ := mem_map.mp hlast
  exact ⟨row, hrow, by omega⟩

theorem Linear.version_of_active (hrow : row ∈ rows)
    (hact : row.active = true) : row.version = rows.length - 1 := by
  obtain ⟨latest, hlate, hver⟩ := h.exists_latest (ne_nil_of_mem hrow)
  have hle := h.highest row hrow hact latest hlate
  have hlt := h.version_lt hrow
  omega

theorem Linear.map (hf : Fades f) : Linear (rows.map f) where
  versions := by
    have hsame : (rows.map f).map version = rows.map version := by
      rw [map_map]
      exact map_congr_left fun row _ => hf.version row
    rw [hsame, length_map]
    exact h.versions
  sole := by
    rw [filter_map, length_map]
    refine le_trans (List.Sublist.length_le ?_) h.sole
    exact monotone_filter_right rows fun row hrow => hf.active row hrow
  highest := by
    intro row hrow hact other hother
    obtain ⟨row, hmem, rfl⟩ := mem_map.mp hrow
    obtain ⟨other, hmem', rfl⟩ := mem_map.mp hother
    rw [hf.version, hf.version]
    exact h.highest row hmem (hf.active row hact) other hmem'

theorem linear_cons_iff (hact : row.active = true) : Linear (row :: rows) ↔
      row.version = rows.length ∧ ∀ other ∈ rows, other.active = false := by
  constructor
  · intro hcons
    refine ⟨?_, ?_⟩
    · -- the sums of the versions differ by the new version on one side and by `n` on the other
      have hnew := hcons.versions.sum_eq
      have hold := h.versions.sum_eq
      rw [length_cons, range_succ, map_append, sum_append, ← hold] at hnew
      simpa [add_comm] using hnew
    · have hsole := hcons.sole
      rw [filter_cons_of_pos hact, length_cons] at hsole
      have hzero : (rows.filter active).length = 0 := by omega
      have hnil := eq_nil_of_length_eq_zero hzero
      intro other hother
      simpa using filter_eq_nil_iff.mp hnil other hother
  · rintro ⟨hver, hoth⟩
    have hnone : rows.filter active = [] :=
      filter_eq_nil_iff.mpr fun other hother => by simp [hoth other hother]
    refine ⟨?_, ?_, ?_⟩
    · rw [length_cons, range_succ, map_append, map_cons, hver]
      exact (h.versions.cons _).trans (perm_append_singleton _ _).symm
    · simp [hact, hnone]
    intro active hmem hisActive other hother
    obtain rfl : active = row := by
      rcases mem_cons.mp hmem with heq | hmem
      · exact heq
      · exact absurd hisActive (by simp [hoth active hmem])
    rcases mem_cons.mp hother with rfl | hother
    · exact le_rfl
    have hlt := h.version_lt hother
    omega

end

theorem filter_map_family (repo : JobDefinitionRepository) (hf : Fades f) (tenant : Tenant)
    (jobType : String) :
    ((repo.rows.map f).filter fun row => row.tenant == tenant && row.jobType == jobType) =
      (family repo tenant jobType).map f := by
  rw [family, filter_map]
  refine congrArg _ (filter_congr fun row _ => ?_)
  simp [hf.tenant, hf.jobType]

theorem fades_id : Fades id := {}

theorem Fades.comp {g : JobDefinitionRow → JobDefinitionRow} (hf : Fades f) (hg : Fades g) :
    Fades (f ∘ g) where
  id row := (hf.id _).trans (hg.id row)
  tenant row := (hf.tenant _).trans (hg.tenant row)
  definition row := (hf.definition _).trans (hg.definition row)
  version row := (hf.version _).trans (hg.version row)
  semVersion row := (hf.semVersion _).trans (hg.semVersion row)
  active row h := hg.active row (hf.active _ h)

theorem Fades.where (hf : Fades f) (p : JobDefinitionRow → Bool) :
    Fades fun row => if p row then f row else row := by
  constructor <;> intro row <;> cases p row
  all_goals simp [hf.id, hf.tenant, hf.definition, hf.version, hf.semVersion]
  exact hf.active row

theorem fades_inactive : Fades fun row => { row with active := false } := {}

theorem fades_disabled (disabled : Bool) : Fades fun row => { row with disabled := disabled } := {}

theorem fades_configs : Fades fun row => { row with configs := [] } := {}

variable {repo repo' : JobDefinitionRepository} {indexed : Bool} {qc : QueryContext}
  {job : JobDefinitionRow} {freshID : String}

theorem delete_eq_ok {id : String} (h : repo.delete qc id = .ok repo') :
    ∃ f, Fades f ∧ repo'.rows = repo.rows.map f ∧
      ∀ row ∈ repo, (f row).active = true ↔ row.active = true ∧ row.id ≠ id := by
  unfold delete at h
  dsimp only at h
  split at h <;> cases h
  next repo₁ hupd =>
  obtain ⟨target, htarg, hp⟩ := exists_of_updateOne? hupd
  obtain ⟨-, rfl⟩ := updateOne?_eq_some_iff.mp hupd
  refine ⟨_, fades_inactive.where _, rfl, fun row hrow => ?_⟩
  obtain ⟨hscope, hid⟩ := Bool.and_eq_true_iff.mp hp
  by_cases hrid : row.id = id
  · have heq : row = target :=
      eq_of_key_eq hrow htarg (hrid.trans (beq_iff_eq.mp hid).symm)
    subst heq
    simp [hscope, hrid]
  · simp [hrid]

section

variable (repo : JobDefinitionRepository)

theorem delete_fades (qc : QueryContext) (rowID : String) :
    ∃ f, Fades f ∧ ((repo.delete qc rowID).toOption.getD repo).rows = repo.rows.map f := by
  cases hdel : repo.delete qc rowID with
  | error => exact ⟨id, fades_id, (map_id _).symm⟩
  | ok =>
    obtain ⟨f, hf, hrows, -⟩ := delete_eq_ok hdel
    exact ⟨f, hf, hrows⟩

theorem setDisabled_fades (rowID : String) (disabled : Bool) : ∃ f, Fades f ∧
      ((repo.setDisabled rowID disabled).toOption.getD repo).rows = repo.rows.map f := by
  unfold setDisabled
  dsimp only
  split
  · next repo₁ hupd =>
    obtain ⟨-, rfl⟩ := updateOne?_eq_some_iff.mp hupd
    exact ⟨_, (fades_disabled disabled).where _, rfl⟩
  · exact ⟨id, fades_id, (map_id _).symm⟩

theorem create_cases (indexed : Bool) (job : JobDefinitionRow)
    (oldID : Option String) (freshID : String) :
    (∃ err, create repo indexed job oldID freshID = (repo, .error err)) ∨
    ∃ repo' row f, create repo indexed job oldID freshID = (repo', .ok row) ∧
      row = { job with id := freshID, active := true } ∧ repo'.rows = row :: repo.rows.map f ∧
      Fades f ∧ ∀ row, (f row).active = row.active := by
  unfold create
  dsimp only
  split
  · exact .inl ⟨_, rfl⟩
  split
  · next repo₁ hins =>
    have hrows := (insert?_eq_some hins).2
    refine .inr ⟨_, _, _, rfl, rfl, hrows, fades_configs.where _, fun row => ?_⟩
    split <;> rfl
  · exact .inl ⟨_, rfl⟩

end

def validatedLimit (declared : ℤ) : ℤ := if declared ≤ 1 then 3 else declared

theorem validateBeforeSave_eq_ok {job' : JobDefinitionRow} (h : job.validateBeforeSave = .ok job') :
    ∃ tasks, job' = { job with definition := { job.definition with
      tasks := tasks
      maxConcurrency := validatedLimit job.maxConcurrency } } := by
  obtain ⟨definition, hvalid, h⟩ := Checked.bind_eq_ok.mp h
  obtain ⟨-, h⟩ := Checked.seq_eq_ok.mp h
  cases h
  obtain ⟨tasks, -, rfl⟩ := JobDefinition.validate_eq hvalid
  exact ⟨tasks, rfl⟩

theorem getLatestByType_eq_some {jobType : String} {old : JobDefinitionRow}
    (h : repo.getLatestByType qc jobType = some old) :
    ∃ row ∈ repo, row.jobType = jobType ∧ old = { row with jobVariables := [] } := by
  obtain ⟨row, hfirst, rfl⟩ := Option.map_eq_some_iff.mp h
  obtain ⟨hmem, hp⟩ := first?_eq_some hfirst
  have htype := (Bool.and_eq_true_iff.mp (Bool.and_eq_true_iff.mp hp).1).2
  exact ⟨row, hmem, beq_iff_eq.mp htype, rfl⟩

/-- What a save keeps of the definition that it is called with, once it is checked. -/
structure Keeps (repo : JobDefinitionRepository) (qc : QueryContext) (job job' : JobDefinitionRow) :
    Prop where
  checked : repo.checkPlugin qc job' = .ok ()
  tenant : job'.tenant = qc.tenant
  jobType : job'.jobType = job.jobType
  semVersion : job'.semVersion = job.semVersion
  publicPlugin : job'.definition.publicPlugin = job.definition.publicPlugin

/-- What a save is going to do with a checked definition. -/
inductive Prepares (repo : JobDefinitionRepository) (qc : QueryContext) (job : JobDefinitionRow) :
    JobDefinitionRow → Saving → Prop
  | create {job' : JobDefinitionRow}
      (hnone : ∀ old ∈ repo.getLatestByType qc job.jobType, old.id = "") :
      Prepares repo qc job job' (.create { job' with version := 0, disabled := false })
  | skip {job' old : JobDefinitionRow} (hold : repo.getLatestByType qc job.jobType = some old)
      (hsame : job'.sameAs old = true) : Prepares repo qc job job' (.skip job')
  | replace {job' old : JobDefinitionRow} (hold : repo.getLatestByType qc job.jobType = some old) :
      Prepares repo qc job job' (.replace old
        { job'.setMaxConcurrency old.maxConcurrency with
          version := old.version + 1
          disabled := old.disabled
          configs := old.configs })

theorem prepare_eq_ok {saving : Saving} (h : repo.prepare qc job = .ok saving) :
    ∃ job', Keeps repo qc job job' ∧ job'.id = job.id ∧
      job'.maxConcurrency = validatedLimit job.maxConcurrency ∧
      Prepares repo qc job job' saving := by
  unfold prepare at h
  split at h
  · cases h
  next job' hvalid =>
  split at h
  · cases h
  next hchk =>
  obtain ⟨tasks, rfl⟩ := validateBeforeSave_eq_ok hvalid
  refine ⟨_, ⟨hchk, rfl, rfl, rfl, rfl⟩, rfl, rfl, ?_⟩
  split at h
  · next hnone =>
    cases h
    exact .create fun old hold => absurd (hnone.symm.trans hold) (by simp)
  next old hold =>
  split at h
  · next hid =>
    cases h
    refine .create fun old' hold' => ?_
    cases hold.symm.trans hold'
    exact hid
  split at h
  · next hsame =>
    cases h
    exact .skip hold hsame
  · cases h
    exact .replace hold

def Saving.isSkip : Saving → Bool
  | .skip _ => true
  | _ => false

/-- What a save is going to do continues the numbering of the tenant: it finds the tenant's active
row, or stores the version after the tenant's latest and makes the active row inactive. -/
def Fits (repo : JobDefinitionRepository) (tenant : Tenant) : Saving → Prop
  | .skip job => ∃ row ∈ family repo tenant job.jobType, row.active = true ∧ row.id = job.id
  | .create job => family repo tenant job.jobType = []
  | .replace old job =>
    old.version + 1 = (family repo tenant job.jobType).length ∧
      ∀ row ∈ family repo tenant job.jobType, row.active = true → row.id = old.id

variable {row : JobDefinitionRow}

/-- The outcome of a save: it fails, finds nothing to change, or stores a row before the others. -/
inductive Saves (repo : JobDefinitionRepository) (qc : QueryContext) (job : JobDefinitionRow)
    (freshID : String) : JobDefinitionRepository × Except Error JobDefinitionRow → Prop
  | fails {repo' f err} (hf : Fades f) (hrows : repo'.rows = repo.rows.map f) :
      Saves repo qc job freshID (repo', .error err)
  | skips {job'} (hprepare : repo.prepare qc job = .ok (.skip job'))
      (hkeeps : Keeps repo qc job job') : Saves repo qc job freshID (repo, .ok job')
  | stores {repo' f row saving} (hprepare : repo.prepare qc job = .ok saving)
      (hskip : saving.isSkip = false) (hkeeps : Keeps repo qc job row) (hf : Fades f)
      (hrows : repo'.rows = row :: repo.rows.map f) (hid : row.id = freshID)
      (hactive : row.active = true)
      (hlimit : row.maxConcurrency = validatedLimit job.maxConcurrency ∨
        ∃ old ∈ repo, old.jobType = job.jobType ∧ row.maxConcurrency = old.maxConcurrency)
      (hfits : Fits repo qc.tenant saving ↔
        row.version = (family repo qc.tenant row.jobType).length ∧
          ∀ other ∈ family repo qc.tenant row.jobType, (f other).active = false) :
      Saves repo qc job freshID (repo', .ok row)

theorem save_saves (repo : JobDefinitionRepository) (indexed : Bool) (qc : QueryContext)
    (job : JobDefinitionRow) (freshID : String) :
    Saves repo qc job freshID (save repo indexed qc job freshID) := by
  unfold save
  cases hprep : repo.prepare qc job with
  | error => exact .fails fades_id (map_id _).symm
  | ok =>
    obtain ⟨job', ⟨hchk, hten, htype, hver, hpub⟩, -, hlimit, hprepares⟩ :=
      prepare_eq_ok hprep
    cases hprepares with
    | skip => exact .skips hprep ⟨hchk, hten, htype, hver, hpub⟩
    | create =>
      dsimp only
      rcases create_cases repo indexed { job' with version := 0, disabled := false } none freshID
        with ⟨err, hcr⟩ | ⟨repo', row, f, hcr, rfl, hrows, hf, -⟩ <;> rw [hcr]
      · exact .fails fades_id (map_id _).symm
      refine .stores hprep rfl ⟨hchk, hten, htype, hver, hpub⟩ hf hrows rfl rfl (.inl hlimit) ?_
      change family repo qc.tenant job'.jobType = [] ↔
        (0 : ℤ) = (family repo qc.tenant job'.jobType).length ∧
          ∀ other ∈ family repo qc.tenant job'.jobType, (f other).active = false
      cases family repo qc.tenant job'.jobType with
      | nil => simp
      | cons =>
        simp only [reduceCtorEq, length_cons, false_iff]
        omega
    | @replace old hold =>
      dsimp only
      cases hdel : repo.delete qc old.id with
      | error => exact .fails fades_id (map_id _).symm
      | ok repo₁ =>
        obtain ⟨g, hg, hrows₁, hact⟩ := delete_eq_ok hdel
        dsimp only
        rcases create_cases repo₁ indexed { job'.setMaxConcurrency old.maxConcurrency with
            version := old.version + 1
            disabled := old.disabled
            configs := old.configs } (some old.id) freshID
          with ⟨err, hcr⟩ | ⟨repo', row, f, hcr, rfl, hrows, hf, hsame⟩ <;> rw [hcr]
        · exact .fails hg hrows₁
        rw [hrows₁, map_map] at hrows
        obtain ⟨latest, hlate, hsameType, rfl⟩ := getLatestByType_eq_some hold
        refine .stores hprep rfl ⟨hchk, hten, htype, hver, hpub⟩ (hf.comp hg) hrows rfl rfl
          (.inr ⟨latest, hlate, hsameType, rfl⟩) ?_
        refine and_congr Iff.rfl (forall₂_congr fun row hrow => ?_)
        have hrow := (mem_family.mp hrow).1
        rw [Function.comp_apply, hsame, ← Bool.not_eq_true, hact row hrow]
        tauto

theorem save_keeps (h : (save repo indexed qc job freshID).2 = .ok row) :
    Keeps repo qc job row := by
  have hsaves := save_saves repo indexed qc job freshID
  generalize save repo indexed qc job freshID = saved at h hsaves
  obtain ⟨repo', result⟩ := saved
  cases h
  cases hsaves with
  | skips _ hkeeps | stores _ _ hkeeps => exact hkeeps

/-- The versions of every tenant's definitions are in order, and what a save has returned has the
id of the active row. -/
structure Saved.Ordered (s : Saved) : Prop where
  linear : ∀ tenant jobType, Linear (family s.repo tenant jobType)
  returned : ∀ job ∈ s.returned, ∃ row ∈ family s.repo job.tenant job.jobType,
    row.active = true ∧ row.id = job.id

/-- A save that succeeds continues the numbering of the caller's tenant. -/
def Continues (indexed : Bool) (s : Saved) : Call → Prop
  | .save qc job freshID =>
    (save s.repo indexed qc job freshID).2.toOption.isSome = true →
      ∀ saving ∈ (s.repo.prepare qc job).toOption, Fits s.repo qc.tenant saving
  | .delete _ _ => True
  | .setDisabled _ _ => True

theorem Linear.of_fades {tenant : Tenant} {jobType : String} (hf : Fades f)
    (hrows : repo'.rows = repo.rows.map f) (h : Linear (family repo tenant jobType)) :
    Linear (family repo' tenant jobType) := by
  rw [family, hrows, filter_map_family repo hf]
  exact h.map hf

theorem forall_linear_iff (hf : Fades f) (hrows : repo'.rows = row :: repo.rows.map f)
    (hact : row.active = true) (h : ∀ tenant jobType, Linear (family repo tenant jobType)) :
    (∀ tenant jobType, Linear (family repo' tenant jobType)) ↔
      row.version = (family repo row.tenant row.jobType).length ∧
        ∀ other ∈ family repo row.tenant row.jobType, (f other).active = false := by
  have hfamily : ∀ tenant jobType, family repo' tenant jobType =
      if row.tenant = tenant ∧ row.jobType = jobType then
        row :: (family repo tenant jobType).map f
      else (family repo tenant jobType).map f := by
    intro tenant jobType
    rw [family, hrows, filter_cons, filter_map_family repo hf]
    simp
  have hcons := linear_cons_iff ((h row.tenant row.jobType).map hf) hact
  rw [length_map, forall_mem_map] at hcons
  rw [← hcons]
  constructor
  · intro hall
    simpa [hfamily] using hall row.tenant row.jobType
  intro hnew tenant jobType
  rw [hfamily]
  split
  · next heq =>
    obtain ⟨rfl, rfl⟩ := heq
    exact hnew
  · exact (h tenant jobType).map hf

variable {s s' : Saved} {call : Call}

theorem step_save (h : step indexed s (.save qc job freshID) = some s') :
    s' = ⟨(save s.repo indexed qc job freshID).1,
      (save s.repo indexed qc job freshID).2.toOption⟩ := by
  simp only [step] at h
  split at h
  · exact (Option.some.inj h).symm
  · cases h

theorem step_cases (hstep : step indexed s call = some s') :
    (∃ f, Fades f ∧ s'.repo.rows = s.repo.rows.map f ∧ s'.returned = none) ∨
    ∃ qc job freshID row, call = .save qc job freshID ∧ freshID ≠ "" ∧ s'.returned = some row ∧
      Saves s.repo qc job freshID (s'.repo, .ok row) := by
  cases call with
  | delete qc rowID =>
    cases hstep
    obtain ⟨f, hf, hrows⟩ := delete_fades s.repo qc rowID
    exact .inl ⟨f, hf, hrows, rfl⟩
  | setDisabled rowID disabled =>
    cases hstep
    obtain ⟨f, hf, hrows⟩ := setDisabled_fades s.repo rowID disabled
    exact .inl ⟨f, hf, hrows, rfl⟩
  | save qc job freshID =>
    have hfresh : freshID ≠ "" := by
      by_contra hempty
      simp [step, hempty] at hstep
    rw [step_save hstep]
    have hsaves := save_saves s.repo indexed qc job freshID
    generalize save s.repo indexed qc job freshID = saved at hsaves ⊢
    obtain ⟨repo', err | row⟩ := saved
    · cases hsaves with
      | fails hf hrows => exact .inl ⟨_, hf, hrows, rfl⟩
    · exact .inr ⟨qc, job, freshID, row, rfl, hfresh, rfl, hsaves⟩

theorem exists_fades (hstep : step indexed s call = some s') :
    ∃ f, Fades f ∧ ∀ row ∈ s.repo, f row ∈ s'.repo := by
  rcases step_cases hstep with ⟨f, hf, hrows, -⟩ | ⟨qc, job, freshID, row, -, -, -, hsaves⟩
  · refine ⟨f, hf, fun row hrow => ?_⟩
    rw [← mem_rows, hrows]
    exact mem_map_of_mem hrow
  · generalize s'.repo = repo' at hsaves ⊢
    cases hsaves with
    | skips => exact ⟨id, {}, fun _ hrow => hrow⟩
    | stores _ _ _ hf hrows =>
      refine ⟨_, hf, fun row hrow => ?_⟩
      rw [← mem_rows, hrows]
      exact mem_cons_of_mem _ (mem_map_of_mem hrow)

/-- However definitions are saved, deleted and disabled, a version that is stored stays as it was
saved, and is not made active again. -/
theorem versions_kept (indexed : Bool) (s : Saved) (calls : List Call) :
    (system indexed).Along (fun s' => ∃ f, Fades f ∧ ∀ row ∈ s.repo, f row ∈ s'.repo) s calls := by
  refine TransitionSystem.along_of_step ?_ ⟨id, {}, fun _ hrow => hrow⟩ calls
  rintro s₁ call s₂ ⟨f, hf, hrows⟩ hstep
  obtain ⟨g, hg, hnext⟩ := exists_fades hstep
  refine ⟨g ∘ f, ?_, fun row hrow => hnext _ (hrows row hrow)⟩
  exact ⟨by simp [hg.id, hf.id], by simp [hg.tenant, hf.tenant],
    by simp [hg.definition, hf.definition], by simp [hg.version, hf.version],
    by simp [hg.semVersion, hf.semVersion], fun row hact => hf.active row (hg.active _ hact)⟩

theorem Saved.Ordered.step_iff (h : s.Ordered) (hstep : step indexed s call = some s') :
    s'.Ordered ↔ Continues indexed s call := by
  rcases step_cases hstep with ⟨f, hf, hrows, hnone⟩ | ⟨qc, job, freshID, row, rfl, -, hrow, hsaves⟩
  · refine iff_of_true ⟨fun _ _ => (h.linear _ _).of_fades hf hrows, by simp [hnone]⟩ ?_
    cases call with
    | save =>
      rw [step_save hstep] at hnone
      dsimp only at hnone
      intro hsome
      simp [hnone] at hsome
    | _ => trivial
  have hres : (save s.repo indexed qc job freshID).2.toOption = some row := by
    rw [← hrow, step_save hstep]
  rw [Continues, hres]
  obtain ⟨repo', returned⟩ := s'
  cases hrow
  cases hsaves with
  | skips hprep hkeeps =>
    rw [hprep]
    constructor
    · intro hnew _ saving hsav
      cases hsav
      have hrow := hnew.returned row rfl
      rwa [hkeeps.tenant] at hrow
    · intro hcont
      refine ⟨h.linear, fun job hjob => ?_⟩
      cases hjob
      rw [hkeeps.tenant]
      exact hcont rfl _ rfl
  | @stores _ f _ saving hprep _ hkeeps hf hrows _ hact _ hfits =>
    rw [hprep]
    have hiff := forall_linear_iff hf hrows hact h.linear
    rw [hkeeps.tenant, ← hfits] at hiff
    constructor
    · intro hnew _ saving' hsav
      cases hsav
      exact hiff.mp hnew.linear
    · intro hcont
      refine ⟨hiff.mpr (hcont rfl saving rfl), fun job hjob => ?_⟩
      cases hjob
      refine ⟨row, mem_family.mpr ⟨?_, rfl, rfl⟩, hact, rfl⟩
      rw [← mem_rows, hrows]
      exact mem_cons_self

/-- A caller who is no administrator and has an organization, or has none and never stored the job
type for one. -/
@[mk_iff]
structure Confined (repo : JobDefinitionRepository) (qc : QueryContext) (jobType : String) :
    Prop where
  isAdmin : qc.isAdmin = false
  isReadAdmin : qc.isReadAdmin = false
  userIDColumn : qc.userIDColumn ≠ ""
  organizationIDColumn : qc.organizationIDColumn ≠ ""
  own : qc.getOrganizationID = "" → ∀ row ∈ repo, row.jobType = jobType →
    row.userID = qc.getUserID → row.organizationID = ""

theorem tenant_of_eq_of {userID orgID userID' orgID' : String} :
    Tenant.of userID orgID = Tenant.of userID' orgID' ↔
      orgID = orgID' ∧ (orgID = "" → userID = userID') := by
  unfold Tenant.of
  by_cases h : orgID = "" <;> by_cases h' : orgID' = "" <;> simp [h, h']

theorem Confined.where {jobType : String} (h : Confined repo qc jobType) (userID orgID : String) :
    qc.orgElseUserWhere true userID orgID = true ↔
      if qc.getOrganizationID = "" then userID = qc.getUserID
      else orgID = qc.getOrganizationID := by
  have hadmin := h.isAdmin
  have hread := h.isReadAdmin
  have huser := h.userIDColumn
  have horg := h.organizationIDColumn
  cases hqc : qc.user with
  | none => simp [QueryContext.isAdmin, hqc] at hadmin
  | some user =>
    by_cases hempty : user.organizationID = ""
    · simp [QueryContext.orgElseUserWhere, QueryContext.userWhere, QueryContext.getOrganizationID,
        QueryContext.getUserID, hqc, hadmin, hread, huser, hempty]
    · simp [QueryContext.orgElseUserWhere, QueryContext.getOrganizationID, hqc, hadmin, hread,
        horg, hempty]

theorem Confined.selects {jobType : String} (h : Confined repo qc jobType) (hrow : row ∈ repo) :
    selects qc jobType row = (row.tenant == qc.tenant && row.jobType == jobType) := by
  rw [Bool.eq_iff_iff, JobDefinitionRepository.selects]
  simp only [Bool.and_eq_true, beq_iff_eq, h.where]
  refine and_congr_left fun htype => ?_
  rw [tenant, QueryContext.tenant, tenant_of_eq_of]
  split
  · next hempty =>
    rw [hempty]
    constructor
    · intro huser
      exact ⟨h.own hempty row hrow htype huser, fun _ => huser⟩
    · exact fun hboth => hboth.2 hboth.1
  · next hne =>
    constructor
    · intro horg
      exact ⟨horg, fun hempty => absurd (horg.symm.trans hempty) hne⟩
    · exact And.left

theorem getLatestByType_eq {jobType : String} (hconf : Confined repo qc jobType)
    (h : Linear (family repo qc.tenant jobType)) :
    family repo qc.tenant jobType = [] ∧ repo.getLatestByType qc jobType = none ∨
    ∃ row ∈ family repo qc.tenant jobType,
      row.version = (family repo qc.tenant jobType).length - 1 ∧
      repo.getLatestByType qc jobType = some { row with jobVariables := [] } := by
  have hcount : repo.affected (selects qc jobType) = (family repo qc.tenant jobType).length := by
    rw [affected, countP_eq_length_filter, family]
    exact congrArg _ (filter_congr fun row hrow => hconf.selects hrow)
  unfold getLatestByType
  rw [hcount]
  cases hfirst : repo.first? fun row =>
      selects qc jobType row && row.version == ((family repo qc.tenant jobType).length : ℤ) - 1 with
  | none =>
    refine .inl ⟨?_, rfl⟩
    by_contra hne
    obtain ⟨row, hrow, hver⟩ := h.exists_latest hne
    obtain ⟨hmem, hten, htype⟩ := mem_family.mp hrow
    have hnot := first?_eq_none_iff.mp hfirst row hmem
    simp [hconf.selects hmem, hten, htype, hver] at hnot
  | some row =>
    obtain ⟨hmem, hp⟩ := first?_eq_some hfirst
    rw [hconf.selects hmem] at hp
    simp only [Bool.and_eq_true, beq_iff_eq] at hp
    exact .inr ⟨row, mem_family.mpr ⟨hmem, hp.1⟩, hp.2, rfl⟩

/-- The caller of a save sees its own rows, and where there is nothing to change it gives the id of
the latest version. -/
def OwnScope (s : Saved) : Call → Prop
  | .save qc job _ =>
    Confined s.repo qc job.jobType ∧
      ∀ saving ∈ (s.repo.prepare qc job).toOption, saving.isSkip = true →
        ∀ old ∈ s.repo.getLatestByType qc job.jobType, job.id = old.id
  | .delete _ _ => True
  | .setDisabled _ _ => True

theorem fits_of_confined {saving : Saving} (hconf : Confined repo qc job.jobType)
    (hlin : ∀ tenant jobType, Linear (family repo tenant jobType))
    (hnamed : ∀ row ∈ repo, row.id ≠ "") (hprep : repo.prepare qc job = .ok saving)
    (hskip : saving.isSkip = true → ∀ old ∈ repo.getLatestByType qc job.jobType, job.id = old.id) :
    Fits repo qc.tenant saving := by
  have hlin := hlin qc.tenant job.jobType
  obtain ⟨job', hkeeps, hid, -, hprepares⟩ := prepare_eq_ok hprep
  have htype := hkeeps.jobType
  rcases getLatestByType_eq hconf hlin with ⟨hnil, hlate⟩ | ⟨latest, hmem, hver, hlate⟩
  · cases hprepares with
    | create =>
      change family repo qc.tenant job'.jobType = []
      rw [htype, hnil]
    | skip hold | replace hold => cases hlate.symm.trans hold
  · cases hprepares with
    | create hnone => exact absurd (hnone _ hlate) (hnamed latest (mem_family.mp hmem).1)
    | skip hold hsame =>
      cases hlate.symm.trans hold
      have hact : latest.active = true := (Bool.and_eq_true_iff.mp hsame).2
      refine ⟨latest, by rwa [htype], hact, ?_⟩
      exact (hid.trans (hskip rfl _ hlate)).symm
    | replace hold =>
      cases hlate.symm.trans hold
      change latest.version + 1 = ((family repo qc.tenant job'.jobType).length : ℤ) ∧
        ∀ row ∈ family repo qc.tenant job'.jobType, row.active = true → row.id = latest.id
      rw [htype]
      refine ⟨by omega, fun row hrow hact => ?_⟩
      have heq := (hlin.version_of_active hrow hact).trans hver.symm
      have hnodup : Nodup (map JobDefinitionRow.version _) :=
        hlin.versions.nodup_iff.mpr (nodup_range.map fun _ _ heq => Int.ofNat.inj heq)
      rw [inj_on_of_nodup_map hnodup hrow hmem heq]

instance (repo : JobDefinitionRepository) (tenant : Tenant) (saving : Saving) :
    Decidable (Fits repo tenant saving) := by
  cases saving <;> dsimp only [Fits] <;> infer_instance

instance (s : Saved) (call : Call) : Decidable (Continues indexed s call) := by
  cases call <;> dsimp only [Continues] <;> infer_instance

instance (qc : QueryContext) (jobType : String) : Decidable (Confined repo qc jobType) :=
  decidable_of_iff' _ (confined_iff ..)

instance (s : Saved) (call : Call) : Decidable (OwnScope s call) := by
  cases call <;> dsimp only [OwnScope] <;> infer_instance

theorem ordered_empty : Saved.Ordered ⟨empty, none⟩ where
  linear _ _ := linear_nil
  returned := by simp

theorem along_ordered_iff (calls : List Call) :
    (system indexed).Along Saved.Ordered ⟨empty, none⟩ calls ↔
      (system indexed).Meets (Continues indexed) ⟨empty, none⟩ calls :=
  TransitionSystem.along_iff_meets_of_iff (fun _ _ _ h hs => h.step_iff hs) ordered_empty calls

theorem named_step (hstep : step indexed s call = some s') (h : ∀ row ∈ s.repo, row.id ≠ "") :
    ∀ row ∈ s'.repo, row.id ≠ "" := by
  have hfade : ∀ {f}, Fades f → ∀ row ∈ s.repo.rows.map f, row.id ≠ "" := by
    intro f hf row hrow
    obtain ⟨old, hold, rfl⟩ := mem_map.mp hrow
    rw [hf.id]
    exact h old hold
  intro row hrow
  rw [← mem_rows] at hrow
  rcases step_cases hstep with ⟨f, hf, hrows, -⟩ | ⟨_, _, _, new, -, hfresh, -, hsaves⟩
  · exact hfade hf row (hrows ▸ hrow)
  obtain ⟨repo', returned⟩ := s'
  cases hsaves with
  | skips => exact h row hrow
  | stores _ _ _ hf hrows hid =>
    rw [hrows] at hrow
    rcases mem_cons.mp hrow with rfl | hrow
    · exact hid.symm ▸ hfresh
    · exact hfade hf row hrow

/-- Versions stay in order, and saves return the id of the active row, along the runs in which
callers see the rows of their own tenant and give the id of the version that they do not change. -/
theorem versions_ordered (indexed : Bool) (calls : List Call)
    (hown : (system indexed).Meets OwnScope ⟨empty, none⟩ calls) :
    (system indexed).Along Saved.Ordered ⟨empty, none⟩ calls := by
  refine TransitionSystem.along_of_meets
    (I := fun s => s.Ordered ∧ ∀ row ∈ s.repo, row.id ≠ "") (fun _ h => h.1) ?_
    ⟨ordered_empty, fun row hrow => absurd hrow not_mem_nil⟩ hown
  rintro s call s' ⟨hord, hnamed⟩ hscope hstep
  have hcont : Continues indexed s call := by
    cases call with
    | delete | setDisabled => trivial
    | save =>
      intro _ saving hsav
      exact fits_of_confined hscope.1 hord.linear hnamed (Checked.toOption_eq_some.mp hsav)
        (hscope.2 saving hsav)
  exact ⟨(hord.step_iff hstep).mpr hcont, named_step hstep hnamed⟩

def uploaded (rawYaml : String) : JobDefinitionRow where
  id := ""
  userID := ""
  active := false
  definition :=
    { JobSupervisor.jobOf [JobSupervisor.shellTask "compile" ""] with
      rawYaml := rawYaml
      maxConcurrency := 3 }

def acmeMember : QueryContext := .newQueryContextFromIDs "ana" "acme"

def loneUser : QueryContext := .newQueryContextFromIDs "joe" ""

def administrator : QueryContext :=
  .newQueryContext (some
    { id := "root"
      username := "root"
      organizationID := "ops"
      organization := true
      roles := ⟨[⟨RoleType.admin, []⟩], by decide⟩ })

def tenantCalls : List Call :=
  [.save acmeMember (uploaded "first") "d1", .save loneUser (uploaded "first") "d2",
    .save acmeMember (uploaded "second") "d3", .delete acmeMember "d3",
    .save acmeMember (uploaded "second") "d4", .setDisabled "d2" true]

/-- Two tenants save and delete versions of one job type. -/
theorem versions_ordered_tenantCalls :
    (((system true).runWith (fun _ _ => True) ⟨empty, none⟩ tenantCalls).any fun s =>
      decide ((s.repo.rows.map fun row => (row.id, row.version, row.active)) =
        [("d4", 2, true), ("d3", 1, false), ("d2", 0, true), ("d1", 0, false)])) = true ∧
    (system true).Along Saved.Ordered ⟨empty, none⟩ tenantCalls :=
  ⟨by decide, versions_ordered true tenantCalls (by decide)⟩

/-- An administrator continues the numbering of another tenant, and a save that changes nothing
returns a definition without an id. -/
theorem versions_disordered : ¬ (system true).Along Saved.Ordered ⟨empty, none⟩
      [.save acmeMember (uploaded "first") "d1", .save administrator (uploaded "second") "d2"] ∧
    ¬ (system true).Along Saved.Ordered ⟨empty, none⟩
      [.save acmeMember (uploaded "first") "d1", .save acmeMember (uploaded "first") "d2"] := by
  rw [along_ordered_iff, along_ordered_iff]
  exact ⟨by decide, by decide⟩

end Formicary.JobDefinitionRepository

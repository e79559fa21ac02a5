import Formicary.Model.SaveDefinition
import Formicary.Verification.Definition.Versions

/-! # Atomicity of a save

A failed save leaves no row of the version it was to store. -/

namespace Formicary.DefinitionStore

open JobDefinitionRepository List

variable {faults : Stage → Option Error} {indexed : Bool} {s : DefinitionStore}
  {qc : QueryContext} {job : JobDefinitionRow} {ids : IDs}

/-- The save replaces a version, and has made it inactive. -/
def Deactivates (faults : Stage → Option Error) (s : DefinitionStore) (qc : QueryContext)
    (job : JobDefinitionRow) (old : JobDefinitionRow) : Prop :=
  ∃ new, preparing faults s.repo qc job = .ok (.replace old new) ∧ faults .deactivate = none ∧
    ∃ repo, s.repo.delete qc old.id = .ok repo

theorem save_error_cases {err : Error} (herr : (save faults indexed s qc job ids).2 = .error err) :
    (save faults indexed s qc job ids).1 = s ∧ (∀ old, ¬ Deactivates faults s qc job old) ∨
    ∃ old repo, Deactivates faults s qc job old ∧ s.repo.delete qc old.id = .ok repo ∧
      (save faults indexed s qc job ids).1 = { s with repo := repo } := by
  have hins : ∀ (s : DefinitionStore) (job : JobDefinitionRow) (oldID : Option String),
      (insert faults indexed s job oldID ids).2 = .error err →
        (insert faults indexed s job oldID ids).1 = s := by
    intro s job oldID herr
    unfold insert at herr ⊢
    split at herr
    · rfl
    · cases herr
  unfold save at herr ⊢
  cases hprep : preparing faults s.repo qc job with
  | error =>
    refine .inl ⟨rfl, ?_⟩
    rintro old ⟨new, hnew, -⟩
    rw [hprep] at hnew
    cases hnew
  | ok saving =>
    rw [hprep] at herr
    cases saving with
    | skip => cases herr
    | create new =>
      refine .inl ⟨hins s new none herr, ?_⟩
      rintro old ⟨new, hnew, -⟩
      rw [hprep] at hnew
      cases hnew
    | replace old new =>
      cases hfault : faults .deactivate with
      | some =>
        refine .inl ⟨rfl, ?_⟩
        rintro old ⟨-, -, hnone, -⟩
        rw [hfault] at hnone
        cases hnone
      | none =>
        rw [hfault] at herr
        dsimp only at herr ⊢
        cases hdel : s.repo.delete qc old.id with
        | error =>
          refine .inl ⟨rfl, ?_⟩
          rintro old' ⟨new', hnew, -, repo, hok⟩
          rw [hprep] at hnew
          cases hnew
          rw [hdel] at hok
          cases hok
        | ok repo =>
          rw [hdel] at herr
          exact .inr ⟨old, repo, ⟨new, hprep, hfault, repo, hdel⟩, hdel,
            hins { s with repo := repo } new (some old.id) herr⟩

/-- Nothing is stored under the ids of a version. -/
structure NoRows (s : DefinitionStore) (ids : IDs) : Prop where
  job : s.repo.find? ids.job = none
  jobVariables : ∀ row ∈ s.jobVariables, row.ownerID ≠ ids.job
  tasks : ∀ row ∈ s.tasks, row.ownerID ≠ ids.job
  taskVariables : ∀ row ∈ s.taskVariables, ∀ index, row.ownerID ≠ ids.task index
  configs : ∀ row ∈ s.configs, row.ownerID ≠ ids.job

/-- Every active definition of the job type is still active. -/
def StillActive (jobType : String) (s s' : DefinitionStore) : Prop :=
  ∀ row ∈ s.repo, row.jobType = jobType → row.active = true →
    ∃ row' ∈ s'.repo, row'.id = row.id ∧ row'.active = true

theorem noRows_delete {repo : JobDefinitionRepository} {id : String} (hnew : NoRows s ids)
    (hdel : s.repo.delete qc id = .ok repo) : NoRows { s with repo := repo } ids := by
  obtain ⟨f, hf, hrows, -⟩ := delete_eq_ok hdel
  refine { hnew with job := ?_ }
  rw [Table.find?_eq_none_iff]
  intro row hrow
  rw [← Table.mem_rows, hrows] at hrow
  obtain ⟨before, hbef, rfl⟩ := mem_map.mp hrow
  rw [hf.id]
  exact Table.find?_eq_none_iff.mp hnew.job before hbef

theorem Deactivates.mem {old : JobDefinitionRow} (h : Deactivates faults s qc job old) :
    ∃ row ∈ s.repo, row.id = old.id ∧ row.jobType = job.jobType ∧ row.active = old.active := by
  obtain ⟨new, hprep, -⟩ := h
  have hplain : s.repo.prepare qc job = .ok (.replace old new) := by
    unfold preparing at hprep
    split at hprep
    · cases hprep
    next saving hsav =>
    split at hprep
    · cases hprep
    split at hprep
    · rwa [← hprep]
    · split at hprep <;> cases hprep
  obtain ⟨job', -, -, -, hprepares⟩ := prepare_eq_ok hplain
  cases hprepares with
  | replace hold =>
    obtain ⟨row, hrow, htype, rfl⟩ := getLatestByType_eq_some hold
    exact ⟨row, hrow, rfl, htype, rfl⟩

/-- After a save that fails at whatever statement, no row of the new version exists. The active
definition of the job type is still active if and only if the failure came before the save had made
it inactive. -/
theorem save_atomic_iff (hnew : NoRows s ids) {err : Error}
    (herr : (save faults indexed s qc job ids).2 = .error err) :
    NoRows (save faults indexed s qc job ids).1 ids ∧
      (StillActive job.jobType s (save faults indexed s qc job ids).1 ↔
        ¬ ∃ old, Deactivates faults s qc job old ∧ old.active = true) := by
  rcases save_error_cases herr with ⟨hsame, hnot⟩ | ⟨old, repo, hdeact, hdel, hstore⟩
  · rw [hsame]
    refine ⟨hnew, fun _ => ?_, fun _ row hrow _ hact => ⟨row, hrow, rfl, hact⟩⟩
    rintro ⟨old, hold, -⟩
    exact hnot old hold
  rw [hstore]
  refine ⟨noRows_delete hnew hdel, ?_⟩
  obtain ⟨row, hrow, hid, htype, hact⟩ := hdeact.mem
  obtain ⟨f, hf, hrows, hfaded⟩ := delete_eq_ok hdel
  have hmem : ∀ row, row ∈ repo ↔ ∃ row' ∈ s.repo, f row' = row := by
    intro row
    rw [← Table.mem_rows, hrows, mem_map]
    rfl
  constructor
  · rintro hstill ⟨old', hold', hact'⟩
    obtain ⟨row', hrow', hid', htype', hactive''⟩ := hold'.mem
    have hsameOld : old' = old := by
      obtain ⟨new, hprep, -⟩ := hdeact
      obtain ⟨new', hprep', -⟩ := hold'
      rw [hprep] at hprep'
      cases hprep'
      rfl
    subst hsameOld
    obtain ⟨after, hafter, hidAfter, hactiveAfter⟩ :=
      hstill row hrow htype (hact.trans hact')
    obtain ⟨before, hbef, rfl⟩ := (hmem after).mp hafter
    have hne := ((hfaded before hbef).mp hactiveAfter).2
    rw [hf.id] at hidAfter
    exact hne (hidAfter.trans hid)
  · intro hinact row' hrow' htype' hact'
    refine ⟨f row', (hmem _).mpr ⟨row', hrow', rfl⟩, hf.id row', ?_⟩
    refine (hfaded row' hrow').mpr ⟨hact', fun hsame => hinact ⟨old, hdeact, ?_⟩⟩
    have heq : row' = row := Table.eq_of_key_eq hrow' hrow (hsame.trans hid.symm)
    rw [← hact, ← heq, hact']

/-- The first version of a definition, stored without child rows. -/
def firstVersion : DefinitionStore where
  repo := (JobDefinitionRepository.save Table.empty false acmeMember (uploaded "v1") "d1").1
  jobVariables := []
  tasks := []
  taskVariables := []
  configs := []

def secondIDs : IDs where
  job := "d2"
  jobVariables := []
  task _ := "t2"
  taskVariables _ := []
  configs := []

theorem noRows_firstVersion : NoRows firstVersion secondIDs :=
  ⟨by decide, by decide, by decide, by simp [firstVersion], by decide⟩

def failsAt (stage : Stage) : Stage → Option Error :=
  fun other => if other = stage then some ⟨.plain, "connection lost"⟩ else none

/-- If the old version cannot be made inactive, it stays active. -/
theorem save_atomic_deactivate : StillActive "build" firstVersion
      (save (failsAt .deactivate) false firstVersion acmeMember (uploaded "v2") secondIDs).1 := by
  have herr : (save (failsAt .deactivate) false firstVersion acmeMember (uploaded "v2")
      secondIDs).2 = .error ⟨.notFound, "connection lost"⟩ := rfl
  apply (save_atomic_iff noRows_firstVersion herr).2.mpr
  rintro ⟨old, ⟨-, -, hnone, -⟩, -⟩
  cases hnone

/-- If the first task cannot be inserted, the save fails and no version is active. -/
theorem save_not_atomic :
    let saved := save (failsAt (.task 0)) false firstVersion acmeMember (uploaded "v2") secondIDs
    saved.2.toOption.isNone = true ∧ (firstVersion.repo.rows.any JobDefinitionRow.active) = true ∧
      (saved.1.repo.rows.any JobDefinitionRow.active) = false := by
  decide

end Formicary.DefinitionStore

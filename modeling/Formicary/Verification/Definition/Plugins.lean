import Formicary.Verification.Definition.Versions

/-! # Versions of public plugins

Before a release of a public plugin is stored, a stored one with the same version is looked up. -/

namespace Formicary

open SemVersion List

namespace SemVersion

def isNumeric (semVersion : String) : Bool :=
  (Text.split (· == '.') semVersion).all fun part => (digit? part).isSome

def components (semVersion : String) : List ℕ :=
  (Text.split (· == '.') semVersion).filterMap digit?

variable {semVersion : String}

theorem isRelease_of_isNumeric (h : isNumeric semVersion = true) : isRelease semVersion = true := by
  have hall := all_eq_true.mp h
  unfold isRelease
  cases hlast : (Text.split (· == '.') semVersion).getLast? with
  | none =>
    have hnil := getLast?_eq_none_iff.mp hlast
    exact absurd (map_eq_nil_iff.mp hnil) (splitOnP_ne_nil _ _)
  | some part => exact hall part (mem_of_getLast? hlast)

theorem not_mem_of_digit? {part : String} (h : (digit? part).isSome = true) :
    ':' ∉ part.toList := by
  intro hmem
  have hnone : atoi? part = none := by
    have hdig : ∀ digits : List Char, ':' ∈ digits → digits.all Char.isDigit = false := by
      intro digits hin
      refine all_eq_false.mpr ⟨':', hin, by decide⟩
    unfold atoi?
    split
    next sign digits heq =>
      have hin : ':' ∈ digits := by
        split at heq
        · next rest hlist =>
          cases heq
          rw [hlist] at hmem
          simpa using hmem
        · next rest hlist =>
          cases heq
          rw [hlist] at hmem
          simpa using hmem
        · cases heq
          exact hmem
      simp [hdig digits hin]
  simp [digit?, hnone] at h

theorem not_mem_of_isNumeric (h : isNumeric semVersion = true) :
    semVersion ≠ "" ∧ ':' ∉ semVersion.toList := by
  refine ⟨?_, ?_⟩
  · rintro rfl
    exact absurd h (by decide)
  · intro hmem
    obtain ⟨part, hpart, hin⟩ := Text.mem_split (· == '.') hmem (by decide)
    exact not_mem_of_digit? (all_eq_true.mp h part hpart) hin

end SemVersion

namespace JobDefinitionRepository

variable {repo repo' : JobDefinitionRepository} {indexed : Bool} {qc : QueryContext}
  {job row : JobDefinitionRow} {jobType semVersion freshID : String}

def isRelease (jobType : String) (row : JobDefinitionRow) : Bool :=
  row.definition.publicPlugin && row.jobType == jobType && isNumeric row.semVersion

theorem isRelease_iff :
    isRelease jobType row = true ↔ row.definition.publicPlugin = true ∧ row.jobType = jobType ∧
      isNumeric row.semVersion = true := by
  simp [isRelease, and_assoc]

def Readable (jobType : String) (repo : JobDefinitionRepository) : Prop :=
  ∀ row ∈ repo, row.definition.publicPlugin = true → row.jobType = jobType →
    ∃ loaded, row.postProcessJob = .ok loaded

theorem exists_getByTypeAndSemanticVersion (hread : Readable jobType repo)
    (htype : jobType ≠ "") (hcolon : ':' ∉ jobType.toList) (hrow : row ∈ repo)
    (hrel : isRelease jobType row = true) (qc : QueryContext) :
    ∃ old, repo.getByTypeAndSemanticVersion qc jobType row.semVersion = .ok old ∧
      old.semVersion = row.semVersion := by
  obtain ⟨hpublic, hjob, hnum⟩ := isRelease_iff.mp hrel
  obtain ⟨hne, hcolon'⟩ := not_mem_of_isNumeric hnum
  let p := fun other : JobDefinitionRow => other.jobType == jobType &&
    other.semVersion == row.semVersion && other.definition.publicPlugin
  obtain ⟨found, hfound⟩ : ∃ found, repo.first? p = some found := by
    cases hfirst : repo.first? p with
    | some found => exact ⟨found, rfl⟩
    | none =>
      have hno := Table.first?_eq_none_iff.mp hfirst row hrow
      simp [p, hjob, hpublic] at hno
  obtain ⟨hmem, hp⟩ := Table.first?_eq_some hfound
  simp only [p, Bool.and_eq_true, beq_iff_eq] at hp
  obtain ⟨loaded, hload⟩ := hread found hmem hp.2 hp.1.1
  obtain ⟨tasks, hloaded⟩ := JobDefinitionRow.postProcessJob_eq hload
  refine ⟨loaded, ?_, by simpa [hloaded] using hp.1.2⟩
  have hfind : repo.findByType qc jobType row.semVersion = some found := by
    unfold findByType
    rw [if_neg hne]
    exact Option.or_eq_some_iff.mpr (.inl hfound)
  have hsplit : Text.split (· == ':') (jobType ++ ":" ++ row.semVersion) =
    [jobType, row.semVersion] := Text.split_append hcolon hcolon'
  rw [getByTypeAndSemanticVersion, getByType, typeAndVersion, hsplit]
  rw [if_neg htype, hfind]
  dsimp only
  rw [load, hload]
  simp [bind, Except.bind, pure, Except.pure, hloaded, hp.2]

theorem semVersion_ne_of_checkPlugin (hcheck : repo.checkPlugin qc job = .ok ())
    (hrel : isRelease jobType job = true) (hread : Readable jobType repo)
    (htype : jobType ≠ "") (hcolon : ':' ∉ jobType.toList) (hrow : row ∈ repo)
    (hold : isRelease jobType row = true) : row.semVersion ≠ job.semVersion := by
  intro hsame
  obtain ⟨hpublic, hjob, hnum⟩ := isRelease_iff.mp hrel
  obtain ⟨old, hget, hver⟩ :=
    exists_getByTypeAndSemanticVersion hread htype hcolon hrow hold qc
  unfold checkPlugin at hcheck
  rw [hpublic, isRelease_of_isNumeric hnum, hjob, ← hsame, hget] at hcheck
  simp [hver] at hcheck

/-- The releases of the plugin that are stored, the latest first. -/
def releases (repo : JobDefinitionRepository) (jobType : String) : List String :=
  (repo.rows.filter (isRelease jobType)).map JobDefinitionRow.semVersion

theorem releases_fades {f : JobDefinitionRow → JobDefinitionRow} (hf : Fades f)
    (rows : List JobDefinitionRow) :
    ((rows.map f).filter (isRelease jobType)).map JobDefinitionRow.semVersion =
      (rows.filter (isRelease jobType)).map JobDefinitionRow.semVersion := by
  have hsame : isRelease jobType ∘ f = isRelease jobType := by
    funext row
    simp only [Function.comp_apply, isRelease, hf.definition, hf.jobType, hf.semVersion]
  rw [filter_map, hsame, map_map]
  exact map_congr_left fun row _ => hf.semVersion row

def published (indexed : Bool) (jobType : String) (s : Saved) : Call → Option String
  | .save qc job freshID =>
    match s.repo.prepare qc job, (save s.repo indexed qc job freshID).2 with
    | .ok (.skip _), _ => none
    | _, .ok row => if isRelease jobType row then some row.semVersion else none
    | _, .error _ => none
  | .delete _ _ => none
  | .setDisabled _ _ => none

variable {s s' : Saved} {call : Call}

theorem releases_step (hstep : (system indexed).step s call = some s') : releases s'.repo jobType =
      (published indexed jobType s call).toList ++ releases s.repo jobType := by
  rcases step_cases hstep with ⟨f, hf, hrows, hnone⟩ | ⟨qc, job, freshID, row, rfl, -, hrow, hsaves⟩
  · have hpub : published indexed jobType s call = none := by
      cases call with
      | save =>
        rw [step_save hstep] at hnone
        simp only [published]
        split
        · rfl
        · next hrow _ => simp [hrow, Except.toOption] at hnone
        · rfl
      | _ => rfl
    simp [releases, hrows, releases_fades hf, hpub]
  have hres : (save s.repo indexed qc job freshID).2 = .ok row :=
    Checked.toOption_eq_some.mp (by rw [← hrow, step_save hstep])
  obtain ⟨repo', returned⟩ := s'
  cases hsaves with
  | skips hprep => simp [published, hprep]
  | @stores _ f _ saving hprep hskip _ hf hrows =>
    have hsome : published indexed jobType s (.save qc job freshID) =
        if isRelease jobType row then some row.semVersion else none := by
      simp only [published, hprep, hres]
      cases saving with
      | create | replace => rfl
      | skip => cases hskip
    dsimp only at hrows
    simp only [releases, hrows, hsome, filter_cons]
    split <;> simp [releases_fades hf]

/-- The releases of the plugin have been published in increasing order of their components. -/
def Forward (jobType : String) (s : Saved) : Prop :=
  (releases s.repo jobType).Pairwise fun newer older =>
    components older < components newer

/-- A release that is to be saved is above the latest one, or repeats the version of a stored one
that can be looked up. -/
def Attempts (jobType : String) (s : Saved) : Call → Prop
  | .save _ job _ => isRelease jobType job = true →
      (∀ latest ∈ (releases s.repo jobType).head?, components latest < components job.semVersion) ∨
      jobType ≠ "" ∧ ':' ∉ jobType.toList ∧ Readable jobType s.repo ∧
        job.semVersion ∈ releases s.repo jobType
  | _ => True

instance (jobType : String) (s : Saved) : Decidable (Forward jobType s) :=
  inferInstanceAs (Decidable (List.Pairwise _ _))

/-- What is published was to be saved, and if it can be looked up it was not stored before. -/
theorem published_eq_some (hpub : published indexed jobType s call = some semVersion) :
    ∃ qc job freshID, call = .save qc job freshID ∧ isRelease jobType job = true ∧
      job.semVersion = semVersion ∧ (Readable jobType s.repo → jobType ≠ "" →
        ':' ∉ jobType.toList → semVersion ∉ releases s.repo jobType) := by
  cases call with
  | delete | setDisabled => cases hpub
  | save qc job freshID =>
    simp only [published] at hpub
    split at hpub
    · cases hpub
    · next row hrow _ =>
      split_ifs at hpub with hrel
      cases hpub
      have hkeeps := save_keeps hrow
      refine ⟨qc, job, freshID, rfl, ?_, hkeeps.semVersion.symm, fun hread htype hcolon hmem => ?_⟩
      · rwa [isRelease, hkeeps.publicPlugin, hkeeps.jobType, hkeeps.semVersion] at hrel
      · obtain ⟨old, hold, hsame⟩ := mem_map.mp hmem
        obtain ⟨hold, hisRelease⟩ := mem_filter.mp hold
        exact semVersion_ne_of_checkPlugin hkeeps.checked hrel hread htype hcolon hold
          hisRelease hsame
    · cases hpub

theorem forward_step (h : Forward jobType s) (hok : Attempts jobType s call)
    (hstep : (system indexed).step s call = some s') : Forward jobType s' := by
  unfold Forward at *
  rw [releases_step hstep]
  cases hpub : published indexed jobType s call with
  | none => exact h
  | some semVersion =>
    obtain ⟨qc, job, freshID, rfl, hrel, rfl, hnew⟩ := published_eq_some hpub
    rcases hok hrel with hlate | ⟨htype, hcolon, hread, hmem⟩
    · cases hrels : releases s.repo jobType with
      | nil => exact pairwise_singleton _ _
      | cons latest =>
        rw [hrels] at h hlate
        have hlt := hlate latest rfl
        refine pairwise_cons.mpr ⟨forall_mem_cons.mpr ⟨hlt, fun other hother => ?_⟩, h⟩
        exact List.lt_trans ((pairwise_cons.mp h).1 other hother) hlt
    · exact absurd hmem (hnew hread htype hcolon)

def Distinct (jobType : String) (s : Saved) : Prop :=
  (releases s.repo jobType).Nodup

theorem distinct_step (h : Distinct jobType s)
    (hread : Readable jobType s.repo) (htype : jobType ≠ "") (hcolon : ':' ∉ jobType.toList)
    (hstep : (system indexed).step s call = some s') : Distinct jobType s' := by
  unfold Distinct at *
  rw [releases_step hstep]
  cases hpub : published indexed jobType s call with
  | none => exact h
  | some semVersion =>
    obtain ⟨-, -, -, -, -, -, hnew⟩ := published_eq_some hpub
    exact nodup_cons.mpr ⟨hnew hread htype hcolon, h⟩

/-- The releases of a plugin move forward if each one that is to be saved is above the latest, or
repeats a stored one and is refused. What the check of a save does ensure, if the job type has no
colon and the stored releases can be loaded, is that none is published twice. -/
theorem plugin_forward (indexed : Bool) (jobType : String) (calls : List Call) :
    ((system indexed).Meets (Attempts jobType) ⟨Table.empty, none⟩ calls →
      (system indexed).Along (Forward jobType) ⟨Table.empty, none⟩ calls) ∧
    (jobType ≠ "" → ':' ∉ jobType.toList →
      (system indexed).Along (fun s => Readable jobType s.repo) ⟨Table.empty, none⟩ calls →
      (system indexed).Along (Distinct jobType) ⟨Table.empty, none⟩ calls) := by
  refine ⟨?_, ?_⟩
  · have hinit : Forward jobType ⟨Table.empty, none⟩ := List.Pairwise.nil
    exact TransitionSystem.along_of_meets (fun _ h => h) (fun _ _ _ => forward_step) hinit
  · intro htype hcolon hread
    have hgen : ∀ s : Saved, Distinct jobType s →
        (system indexed).Along (fun s => Readable jobType s.repo) s calls →
        (system indexed).Along (Distinct jobType) s calls := by
      clear hread
      induction calls with
      | nil => exact fun s h _ => h
      | cons call calls ih =>
        intro s h hread
        refine ⟨h, fun s' hstep => ?_⟩
        exact ih s' (distinct_step h hread.1 htype hcolon hstep) (hread.2 s' hstep)
    exact hgen _ nodup_nil hread

def plugin (semVersion : String) : JobDefinitionRow :=
  { uploaded semVersion with
    semVersion := semVersion
    definition := { (uploaded semVersion).definition with
      jobType := "com.acme.build"
      publicPlugin := true } }

theorem plugin_forward_releases : (system true).Along (Forward "com.acme.build")
    ⟨Table.empty, none⟩ [.save acmeMember (plugin "9.0") "d1",
      .save acmeMember (plugin "10.0") "d2"] := by
  refine (plugin_forward true "com.acme.build" _).1 ?_
  rintro s hs
  refine ⟨fun _ => .inl nofun, ?_⟩
  cases hs
  exact fun s' hs' => ⟨fun _ => .inl (by decide), trivial⟩

/-- After `2.0` an older release is published, and becomes the active definition. -/
theorem plugin_backward : let calls : List Call := [.save acmeMember (plugin "2.0") "d1",
      .save acmeMember (plugin "1.0") "d2"]
    ¬ (system true).Along (Forward "com.acme.build") ⟨Table.empty, none⟩ calls ∧
      ∃ s, (system true).Reachable s ∧ (releases s.repo "com.acme.build" = ["1.0", "2.0"] ∧
        (s.repo.rows.filter JobDefinitionRow.active).map JobDefinitionRow.semVersion =
          ["1.0"]) := by
  refine ⟨by decide, ?_⟩
  exact TransitionSystem.exists_reachableWith _ _ [.save acmeMember (plugin "2.0") "d1",
    .save acmeMember (plugin "1.0") "d2"] rfl (by decide)

end JobDefinitionRepository

end Formicary

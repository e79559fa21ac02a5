import Formicary.Verification.Retention.Run
import Formicary.Verification.Supervisor.Machine

/-! # Completeness of the purge

A run goes through all active definitions if they fit on the first page. -/

namespace Formicary

open List JobDefinitionRow QueryContext Checked

namespace JobDefinitionRepository

/-- Every active definition can be loaded, and there are no more of them than a page holds. -/
structure OnePage (repo : JobDefinitionRepository) : Prop where
  few : repo.activeRows.length ≤ RetentionManager.pageSize
  loads : ∀ row ∈ repo.activeRows, ∃ loaded, row.postProcessJob = .ok loaded

theorem activeRows_length_le (repo : JobDefinitionRepository) :
    repo.activeRows.length ≤ repo.rows.length := by
  rw [activeRows, length_insertionSort]
  exact length_filter_le _ _

end JobDefinitionRepository

namespace RetentionManager

open History JobDefinitionRepository

variable {env : Surroundings} {repo : JobDefinitionRepository}

theorem processed_sublist (env : Surroundings) (repo : JobDefinitionRepository) (h : History) :
    ((purgeAll env repo h).1.processed.map JobDefinitionRow.id).Sublist
      ((repo.activeRows.take pageSize ++ repo.activeRows.drop (pageSize * pageSize)).map
        JobDefinitionRow.id) := by
  unfold purgeAll purgePages
  cases env.queryError 0 with
  | some => exact nil_sublist _
  | none =>
    cases hquery : repo.query (newQueryContextFromIDs "" "").withAdmin 0 pageSize with
    | error => exact nil_sublist _
    | ok jobDefs =>
      have hpage := covers_page env ⟨h, 0, []⟩ hquery
      rw [Nat.zero_mul, drop_zero] at hpage
      cases jobDefs with
      | nil => exact nil_sublist _
      | cons jd jobDefs =>
        dsimp only
        split
        · rw [hpage.processed, nil_append, map_append]
          exact hpage.ids.trans (sublist_append_left _ _)
        obtain ⟨new, hnew⟩ := purgePages_covers env repo repo.rows.length (0 + pageSize)
          ((jd :: jobDefs).foldl (purgeDefinition env) ⟨h, 0, []⟩)
        have hboth := hpage.append hnew (List.Sublist.refl _)
        rw [hboth.processed, nil_append]
        simpa only [Nat.zero_add] using hboth.ids

theorem processed_length_lt (env : Surroundings) (h : History)
    (hmany : pageSize < repo.activeRows.length) :
    (purgeAll env repo h).1.processed.length < repo.activeRows.length := by
  have hsub := (processed_sublist env repo h).length_le
  simp only [length_map, length_append, length_take, length_drop] at hsub
  have hsize : pageSize < pageSize * pageSize := by decide
  omega

theorem processed_eq_nil (env : Surroundings) (h : History)
    (hfew : repo.activeRows.length ≤ pageSize) {row : JobDefinitionRow}
    (hrow : row ∈ repo.activeRows) (hload : ∀ loaded, row.postProcessJob ≠ .ok loaded) :
    (purgeAll env repo h).1.processed = [] := by
  have hquery : ∀ jobDefs, repo.query (newQueryContextFromIDs "" "").withAdmin 0
      pageSize ≠ .ok jobDefs := by
    intro jobDefs hok
    rw [query_admin, Nat.zero_mul, drop_zero, take_of_length_le hfew] at hok
    obtain ⟨loaded, hloaded⟩ := exists_mapM.mp ⟨jobDefs, hok⟩ row hrow
    exact hload loaded hloaded
  unfold purgeAll purgePages
  cases env.queryError 0 with
  | some => rfl
  | none =>
    cases hok : repo.query (newQueryContextFromIDs "" "").withAdmin 0 pageSize with
    | error => rfl
    | ok jobDefs => exact absurd hok (hquery jobDefs)

theorem processed_ids (hsound : env.Faultless) (hpage : repo.OnePage) (h : History) :
    (purgeAll env repo h).1.processed.map JobDefinitionRow.id =
      repo.activeRows.map JobDefinitionRow.id := by
  obtain ⟨jobDefs, hload⟩ := exists_mapM.mpr hpage.loads
  have hids := map_eq_of_mapM (g := JobDefinitionRow.id)
    (fun _ _ hrow => (postProcessJob_keeps hrow).1) hload
  have hquery : repo.query (newQueryContextFromIDs "" "").withAdmin 0 pageSize = .ok jobDefs := by
    rw [query_admin, Nat.zero_mul, drop_zero, take_of_length_le hpage.few, hload]
  -- the page after the first one is empty
  have hnext : repo.query (newQueryContextFromIDs "" "").withAdmin (0 + pageSize)
      pageSize = .ok [] := by
    have hempty : repo.activeRows.length ≤ (0 + pageSize) * pageSize :=
      hpage.few.trans (by decide)
    rw [query_admin, drop_eq_nil_of_le hempty]
    rfl
  unfold purgeAll purgePages
  rw [hsound.query, hquery]
  cases jobDefs with
  | nil => exact hids
  | cons jd jobDefs =>
    dsimp only
    split
    case isTrue =>
      rw [foldl_processed]
      exact hids
    case isFalse hfull =>
      have hlen : (jd :: jobDefs).length = repo.activeRows.length := by
        simpa using congrArg length hids
      have hrows := repo.activeRows_length_le
      have hsize : pageSize = 1000 := rfl
      obtain ⟨fuel, hfuel⟩ : ∃ fuel, repo.rows.length = fuel + 1 :=
        ⟨repo.rows.length - 1, by omega⟩
      rw [hfuel]
      unfold purgePages
      rw [hsound.query, hnext]
      rw [foldl_processed]
      exact hids

theorem purgeAll_removes (hsound : env.Faultless) (hpage : repo.OnePage) (h : History) :
    Removes h (fun req => ∃ row ∈ repo.activeRows, Expired env row req)
      (purgeAll env repo h).1.history := by
  apply ((purgeAll_clears env repo h).removes hsound).congr
  intro req _
  constructor
  · rintro ⟨jd, hjd, hexp⟩
    obtain ⟨row, hrow, hload⟩ := loaded_of_processed hjd
    exact ⟨row, hrow, (expired_loaded_iff hload req).mp hexp⟩
  · rintro ⟨row, hrow, hexp⟩
    have hid : row.id ∈ (purgeAll env repo h).1.processed.map JobDefinitionRow.id := by
      rw [processed_ids hsound hpage]
      exact mem_map_of_mem hrow
    obtain ⟨jd, hjd, hsame⟩ := mem_map.mp hid
    obtain ⟨row', hrow', hload⟩ := loaded_of_processed hjd
    have hkeeps := (postProcessJob_keeps hload).1
    have heq : row' = row := Table.eq_of_key_eq (mem_activeRows.mp hrow').1
      (mem_activeRows.mp hrow).1 (hkeeps.symm.trans hsame)
    subst heq
    exact ⟨jd, hjd, (expired_loaded_iff hload req).mpr hexp⟩

/-- Every faultless run processes each active definition once, and deletes with all their rows the
requests that have expired for an active definition and nothing else, if and only if there are no
more active definitions than fit on a page and each of them can be loaded. -/
theorem purge_complete_iff (repo : JobDefinitionRepository) : (∀ env h, env.Faultless →
      ((purgeAll env repo h).1.processed.map JobDefinitionRow.id).Perm
        (repo.activeRows.map JobDefinitionRow.id) ∧
      (∀ row ∈ repo.activeRows, ∀ req ∈ (purgeAll env repo h).1.history.requests,
        ¬ Expired env row req) ∧
      Removes h (fun req => ∃ row ∈ repo.activeRows, Expired env row req)
        (purgeAll env repo h).1.history) ↔
      repo.activeRows.length ≤ 1000 ∧
        ∀ row ∈ repo.activeRows, ∃ loaded, row.postProcessJob = .ok loaded := by
  constructor
  · intro hcompl
    let env : Surroundings := ⟨fun _ _ => 0, fun _ => none, fun _ _ _ => none, fun _ _ _ => none⟩
    have hsound : env.Faultless := ⟨fun _ => rfl, fun _ _ _ => rfl, fun _ _ _ => rfl⟩
    let h : History := ⟨Database.empty, [], [], [], [], [], []⟩
    have hperm := (hcompl env h hsound).1.length_eq
    rw [length_map, length_map] at hperm
    have hfew : repo.activeRows.length ≤ pageSize := by
      by_contra hmany
      have hlt := processed_length_lt env h (Nat.lt_of_not_le hmany)
      omega
    refine ⟨hfew, ?_⟩
    intro row hrow
    by_contra hload
    have hnil := processed_eq_nil env h hfew hrow (not_exists.mp hload)
    rw [hnil, length_nil] at hperm
    exact absurd hrow (length_eq_zero_iff.mp hperm.symm ▸ not_mem_nil)
  · rintro ⟨hfew, hloads⟩ env h hsound
    have hpage : repo.OnePage := ⟨hfew, hloads⟩
    have hrem := purgeAll_removes hsound hpage h
    refine ⟨.of_eq (processed_ids hsound hpage h), ?_, hrem⟩
    intro row hrow req hreq hexp
    exact ((hrem.requests req).mp hreq).2 ⟨row, hrow, hexp⟩

def singleTask (jobType : String) : JobDefinition :=
  { JobSupervisor.jobOf [JobSupervisor.shellTask "compile" ""] with jobType := jobType }

def numbered (i : ℕ) : JobDefinitionRow where
  id := String.ofList (List.replicate i 'd')
  userID := String.ofList (List.replicate i 'u')
  active := true
  definition := singleTask (if i < 1000 then "build" else "deploy")

theorem numbered_id_injective : Function.Injective fun i => (numbered i).id := by
  intro i j hid
  have hlen := congrArg (fun id : String => id.toList.length) hid
  simpa [numbered] using hlen

theorem numbered_jobType (i : ℕ) :
    (numbered i).jobType = if i < 1000 then "build" else "deploy" := rfl

theorem numbered_loads (i : ℕ) : ∃ loaded, (numbered i).postProcessJob = .ok loaded := by
  have hvalid : (numbered i).definition.validate.toOption.isSome = true := by
    change (singleTask (if i < 1000 then "build" else "deploy")).validate.toOption.isSome = true
    split <;> decide
  have hstor := Workflow.eq_ok_of_isSome _ hvalid
  exact ⟨_, seq_eq_ok.mpr ⟨rfl, bind_eq_ok.mpr ⟨_, hstor, rfl⟩⟩⟩

def numberedUntil (n : ℕ) : JobDefinitionRepository where
  rows := (List.range n).map numbered
  nodup := by
    rw [List.map_map]
    exact List.nodup_range.map numbered_id_injective

theorem activeRows_numberedUntil (n : ℕ) :
    (numberedUntil n).activeRows = (range n).map numbered := by
  have hact : (numberedUntil n).rows.filter active = (range n).map numbered := by
    rw [filter_eq_self.mpr]
    · rfl
    · intro row hrow
      obtain ⟨i, -, rfl⟩ := mem_map.mp hrow
      rfl
  rw [activeRows, hact]
  apply List.Pairwise.insertionSort_eq
  rw [pairwise_map]
  refine pairwise_lt_range.imp ?_
  intro i j hij
  rw [numbered_jobType, numbered_jobType]
  split
  · split <;> decide
  split
  · omega
  · decide

def deployed : JobRequest :=
  { JobSupervisor.readyRequest with jobType := "deploy", jobState := .completed }

def deployment : History :=
  { Database.empty with
    requests := ⟨[deployed], by decide⟩
    resourceUses := []
    taskContexts := []
    logs := []
    jobContexts := []
    artifacts := []
    params := [] }

def fortnightLater : Surroundings where
  now _ _ := 14 * 86400
  queryError _ := none
  cancelled _ _ _ := none
  purgeError _ _ _ := none

theorem fortnightLater_faultless : fortnightLater.Faultless :=
  ⟨fun _ => rfl, fun _ _ _ => rfl, fun _ _ _ => rfl⟩

/-- With a thousand and one active definitions the last one is not processed, and a request of its
type stays although its window has passed. -/
theorem purge_incomplete : ∃ env repo h, ∃ row ∈ repo.activeRows, ∃ req : JobRequest,
      env.Faultless ∧ (∀ row ∈ repo.activeRows, ∃ loaded, row.postProcessJob = .ok loaded) ∧
      row.id ∉ (purgeAll env repo h).1.processed.map JobDefinitionRow.id ∧
      req ∈ (purgeAll env repo h).1.history.requests ∧ Expired env row req := by
  have hrows := activeRows_numberedUntil 1001
  have hfirst : ∀ id ∈ (purgeAll fortnightLater (numberedUntil 1001) deployment).1.processed.map
      JobDefinitionRow.id, ∃ i < 1000, (numbered i).id = id := by
    intro id hid
    have hmem := (processed_sublist _ _ _).subset hid
    rw [hrows] at hmem
    have hlast : ((range 1001).map numbered).drop (pageSize * pageSize) = [] := by
      apply drop_eq_nil_of_le
      rw [length_map, length_range]
      decide
    rw [hlast, append_nil, ← map_take, take_range] at hmem
    simp only [mem_map, mem_range, exists_exists_and_eq_and] at hmem
    obtain ⟨i, hi, hid⟩ := hmem
    exact ⟨i, lt_of_lt_of_le hi (Nat.min_le_left _ _), hid⟩
  have hlast : numbered 1000 ∈ (numberedUntil 1001).activeRows := by
    rw [hrows]
    exact mem_map_of_mem (mem_range.mpr (by omega))
  refine ⟨fortnightLater, numberedUntil 1001, deployment, numbered 1000, hlast, deployed,
    fortnightLater_faultless, ?_, ?_, ?_, ?_⟩
  · intro row hrow
    rw [hrows] at hrow
    obtain ⟨i, -, rfl⟩ := mem_map.mp hrow
    exact numbered_loads i
  · intro hid
    obtain ⟨i, hi, hsame⟩ := hfirst _ hid
    have heq : i = 1000 := numbered_id_injective hsame
    omega
  · by_contra hgone
    obtain ⟨jd, hjd, hexp⟩ := (purgeAll_clears _ _ _).of_gone
      (show deployed ∈ deployment.requests from mem_singleton_self _) hgone
    obtain ⟨row, hrow, hload⟩ := loaded_of_processed hjd
    obtain ⟨hkeepsID, hkeepsType, -⟩ := JobDefinitionRow.postProcessJob_keeps hload
    obtain ⟨i, hi, hid⟩ := hfirst _ (mem_map_of_mem hjd)
    rw [hrows] at hrow
    obtain ⟨k, -, rfl⟩ := mem_map.mp hrow
    have hki : i = k := numbered_id_injective (hid.trans hkeepsID)
    subst hki
    have htype := hexp.1
    rw [hkeepsType, numbered_jobType, if_pos hi] at htype
    exact absurd htype (by decide)
  · exact ⟨rfl, by decide, by decide⟩

end RetentionManager

end Formicary

/-! ## Retention and tenants

The purge of a job type does not ask who owns a request. -/

namespace Formicary.RetentionManager

open JobDefinitionRow JobDefinitionRepository

/-- No other tenant has an active definition of a type of which the tenant has requests that are
done. -/
def Apart (tenant : Tenant) (h : History) (repo : JobDefinitionRepository) : Prop :=
  ∀ req ∈ h.requests, req.tenant = tenant → req.jobState ∈ terminalStates →
    ∀ row ∈ repo.activeRows, row.jobType = req.jobType → row.tenant = tenant

/-- Whatever the clock reads and whatever goes wrong, only requests that have expired for an active
definition of the tenant are deleted. -/
def DeletesOwn (tenant : Tenant) (h : History) (repo : JobDefinitionRepository) : Prop :=
  ∀ env : Surroundings, ∀ req ∈ h.requests, req.tenant = tenant →
    req ∉ (purgeAll env repo h).1.history.requests →
      ∃ row ∈ repo.activeRows, row.tenant = tenant ∧ Expired env row req

variable {tenant : Tenant} {h : History} {repo repo' : JobDefinitionRepository}

instance : Decidable (Apart tenant h repo) :=
  inferInstanceAs (Decidable (∀ req ∈ h.requests, _ → _ → ∀ row ∈ repo.activeRows, _ → _))

variable {env : Surroundings} {req : JobRequest}

theorem Apart.own (hapart : Apart tenant h repo) (hreq : req ∈ h.requests)
    (hten : req.tenant = tenant) {row : JobDefinitionRow} (hrow : row ∈ repo.activeRows)
    (hexp : Expired env row req) : row.tenant = tenant :=
  hapart req hreq hten (getRetentionDays_pos_iff.mp hexp.2.1) row hrow hexp.1.symm

theorem Apart.deletesOwn (hapart : Apart tenant h repo) : DeletesOwn tenant h repo := by
  intro env req hreq hten hgone
  obtain ⟨jd, hjd, hexp⟩ := (purgeAll_clears env repo h).of_gone hreq hgone
  obtain ⟨row, hrow, hload⟩ := loaded_of_processed hjd
  have hown := (expired_loaded_iff hload req).mp hexp
  exact ⟨row, hrow, hapart.own hreq hten hrow hown, hown⟩

theorem mem_purgeAll_iff (hpage : repo.OnePage) (hsound : env.Faultless)
    (hreq : req ∈ h.requests) : req ∈ (purgeAll env repo h).1.history.requests ↔
      ¬ ∃ row ∈ repo.activeRows, Expired env row req := by
  rw [(purgeAll_removes hsound hpage h).requests, and_iff_right hreq]

/-- When one definition comes up the request is old enough, and for the others it is new. -/
theorem exists_expired_alone {row : JobDefinitionRow} (htype : row.jobType = req.jobType)
    (hdone : req.jobState ∈ terminalStates) : ∃ env : Surroundings, env.Faultless ∧
      Expired env row req ∧ ∀ other, Expired env other req → other.id = row.id := by
  have hdays : 0 < row.getRetentionDays req.jobState := getRetentionDays_pos_iff.mpr hdone
  refine ⟨⟨fun id state => if id = row.id then
      req.updatedAt + row.getRetentionDays state * 86400 + 1 else req.updatedAt,
    fun _ => none, fun _ _ _ => none, fun _ _ _ => none⟩,
    ⟨fun _ => rfl, fun _ _ _ => rfl, fun _ _ _ => rfl⟩, ⟨htype.symm, hdays, ?_⟩, ?_⟩
  · change req.updatedAt < addDays (if row.id = row.id then _ else _) _
    rw [if_pos rfl, addDays]
    linarith
  · intro other hexp
    by_contra hother
    have hnew : req.updatedAt < addDays (if other.id = row.id then _ else _) _ := hexp.2.2
    rw [if_neg hother, addDays] at hnew
    linarith [hexp.2.1]

/-- A tenant is apart if, whenever a request has expired, it has for a definition of the tenant. -/
theorem apart_of_expired (hgone : ∀ env : Surroundings, env.Faultless → ∀ req ∈ h.requests,
      req.tenant = tenant → (∃ row ∈ repo.activeRows, Expired env row req) →
      ∃ row ∈ repo.activeRows, row.tenant = tenant ∧ Expired env row req) :
    Apart tenant h repo := by
  intro req hreq hten hdone row hrow htype
  obtain ⟨env, hsound, hexp, halone⟩ := exists_expired_alone htype hdone
  obtain ⟨other, hother, hmine, hexp'⟩ := hgone env hsound req hreq hten ⟨row, hrow, hexp⟩
  have heq : other = row := Table.eq_of_key_eq (mem_activeRows.mp hother).1
    (mem_activeRows.mp hrow).1 (halone other hexp')
  exact heq ▸ hmine

def definedBy (organizationID jobType : String) (days : ℤ) : JobDefinitionRow :=
  { numbered 0 with
    id := organizationID ++ "-" ++ jobType
    userID := ""
    organizationID := organizationID
    definition := singleTask jobType
    retentionDaysForCompleted := days }

/-- A request of `acme` for `build`, completed two weeks before the run. -/
def acmeBuild : JobRequest :=
  { JobSupervisor.readyRequest with organizationID := "acme", jobState := .completed }

def acmeHistory : History :=
  { deployment with requests := ⟨[acmeBuild], by decide⟩ }

def acmeAlone : JobDefinitionRepository := ⟨[definedBy "acme" "build" 30], by decide⟩

/-- Another organization keeps completed requests for a week. -/
def withGlobex (jobType : String) (hid : "globex-" ++ jobType ≠ "acme-build") :
    JobDefinitionRepository where
  rows := [definedBy "acme" "build" 30, definedBy "globex" jobType 7]
  nodup := by simpa [definedBy] using hid.symm

theorem onePage_of_isSome (hfew : repo.activeRows.length ≤ pageSize)
    (hloads : ∀ row ∈ repo.activeRows, row.postProcessJob.toOption.isSome = true) : repo.OnePage :=
  ⟨hfew, fun row hrow => ⟨_, Workflow.eq_ok_of_isSome _ (hloads row hrow)⟩⟩

end Formicary.RetentionManager

import Formicary.Verification.Definition.Validation
import Formicary.Verification.Retention.Removal

/-! # What a run of the purge deletes

The definitions that a run comes to, and the requests it deletes for them. -/

namespace Formicary

open JobDefinitionRow QueryContext List

variable {loaded : JobDefinitionRow} {state : RequestState}

namespace JobDefinitionRow

variable {job : JobDefinitionRow}

theorem postProcessJob_keeps (h : job.postProcessJob = .ok loaded) :
    loaded.id = job.id ∧ loaded.jobType = job.jobType ∧
      loaded.getRetentionDays = job.getRetentionDays := by
  obtain ⟨tasks, rfl⟩ := postProcessJob_eq h
  exact ⟨rfl, rfl, rfl⟩

theorem getRetentionDays_pos_iff :
    0 < job.getRetentionDays state ↔ state ∈ RetentionManager.terminalStates := by
  cases state
  case failed | completed | cancelled =>
    refine iff_of_true ?_ (by decide)
    simp only [getRetentionDays]
    split
    · assumption
    · decide
  all_goals exact iff_of_false (lt_irrefl 0) (by decide)

end JobDefinitionRow

namespace JobDefinitionRepository

def activeRows (repo : JobDefinitionRepository) : List JobDefinitionRow :=
  (repo.rows.filter active).insertionSort fun a b => a.jobType ≤ b.jobType

theorem mem_activeRows {repo : JobDefinitionRepository} {row : JobDefinitionRow} :
    row ∈ repo.activeRows ↔ row ∈ repo ∧ row.active = true := by
  rw [activeRows, mem_insertionSort, mem_filter, Table.mem_rows]

theorem query_admin (repo : JobDefinitionRepository) (page pageSize : ℕ) :
    repo.query (newQueryContextFromIDs "" "").withAdmin page pageSize =
      ((repo.activeRows.drop (page * pageSize)).take pageSize).mapM postProcessJob := by
  have hadmin : (newQueryContextFromIDs "" "").withAdmin.isAdmin = true := by decide
  simp [query, activeRows, orgElseUserWhere, hadmin]

end JobDefinitionRepository

namespace RetentionManager

open History

/-- Nothing goes wrong. -/
structure Surroundings.Faultless (env : Surroundings) : Prop where
  query : ∀ offset, env.queryError offset = none
  context : ∀ id state batch, env.cancelled id state batch = none
  purge : ∀ id state batch, env.purgeError id state batch = none

/-- The window that the run computes for the definition and the state of the request has passed. -/
def Expired (env : Surroundings) (jd : JobDefinitionRow) (req : JobRequest) : Prop :=
  req.jobType = jd.jobType ∧ 0 < jd.getRetentionDays req.jobState ∧
    req.updatedAt < addDays (env.now jd.id req.jobState) (-jd.getRetentionDays req.jobState)

variable {env : Surroundings} {repo : JobDefinitionRepository}

instance (jd : JobDefinitionRow) (req : JobRequest) : Decidable (Expired env jd req) :=
  inferInstanceAs (Decidable (_ ∧ _ ∧ _))

variable {jd : JobDefinitionRow}

theorem expired_loaded_iff (h : jd.postProcessJob = .ok loaded)
    (req : JobRequest) : Expired env loaded req ↔ Expired env jd req := by
  obtain ⟨hid, htype, hdays⟩ := postProcessJob_keeps h
  rw [Expired, Expired, hid, htype, hdays]

theorem drain_clears
    (hterm : state.isTerminal = true) (olderThan : Time) (fuel batch total : ℕ) (h : History)
    (hfuel : h.requests.rows.length < fuel) :
    Clears env.Faultless h (fun req => selects jd.jobType state olderThan req = true)
      (drain env jd state olderThan fuel batch total h).1 := by
  induction fuel generalizing batch total h with
  | zero => omega
  | succ fuel ih =>
    obtain ⟨reqs, hreqs⟩ : ∃ reqs, h.batch jd.jobType state olderThan batchSize = reqs := ⟨_, rfl⟩
    obtain ⟨h₁, hpurge, hrem⟩ := removes_batch hreqs hterm (by decide)
    have hbatch : ∀ req ∈ reqs, selects jd.jobType state olderThan req = true :=
      fun req hreq => (mem_batch hreqs hreq).2
    unfold drain
    cases hcanc : env.cancelled jd.id state batch with
    | some =>
      exact clears_none h fun hsound => by simp [hsound.context] at hcanc
    | none =>
      cases herror : env.purgeError jd.id state batch with
      | some =>
        exact clears_none h fun hsound => by simp [hsound.purge] at herror
      | none =>
        rw [hpurge]
        dsimp only
        split
        case isTrue hlast =>
          exact ⟨_, hbatch, fun _ req => mem_batch_of_length_lt hreqs hlast, hrem⟩
        case isFalse hfull =>
          have hne : 0 < reqs.length := by
            have hsize : 0 < batchSize := by decide
            omega
          obtain ⟨req, hreq⟩ := exists_mem_of_length_pos hne
          have hfewer := hrem.length_lt (mem_batch hreqs hreq).1 hreq
          have hfirst : Clears env.Faultless h (· ∈ reqs) h₁ :=
            ⟨_, fun _ hq => hq, fun _ _ _ hq => hq, hrem⟩
          have hrest := ih (batch + 1) (total + reqs.length) h₁ (by omega)
          apply (hfirst.trans hrest).mono
          · intro req hsel
            exact hsel.elim (hbatch req) id
          · intro req _ hsel
            exact .inr hsel

theorem purgeOne_clears (env : Surroundings) (jd : JobDefinitionRow) (s : Purging)
    (state : RequestState) :
    Clears env.Faultless s.history (fun req => req.jobState = state ∧ Expired env jd req)
      (purgeOne env jd s state).history := by
  unfold purgeOne
  dsimp only
  split
  case isTrue hdays =>
    apply (Clears.refl s.history).mono
    · intro req hfalse
      exact hfalse.elim
    · rintro req - ⟨rfl, -, hpos, -⟩
      omega
  case isFalse hdays =>
    have hpos : 0 < jd.getRetentionDays state := by omega
    have hterm : state.isTerminal = true := by
      have hmem := getRetentionDays_pos_iff.mp hpos
      revert hmem
      cases state <;> decide
    have hdrain : Clears env.Faultless s.history
        (fun req => req.jobState = state ∧ Expired env jd req)
        (purgeState env jd state (addDays (env.now jd.id state) (-jd.getRetentionDays state))
          s.history).1 := by
      apply (drain_clears hterm _ _ 0 0 s.history (Nat.lt_succ_self _)).mono
      · intro req hsel
        simp only [selects, Bool.and_eq_true, beq_iff_eq, decide_eq_true_eq] at hsel
        obtain ⟨⟨htype, rfl⟩, hold⟩ := hsel
        exact ⟨rfl, htype, hpos, hold⟩
      · rintro req - ⟨rfl, htype, -, hold⟩
        simp only [selects, Bool.and_eq_true, beq_iff_eq, decide_eq_true_eq]
        exact ⟨⟨htype, trivial⟩, hold⟩
    generalize purgeState env jd state _ s.history = result at hdrain ⊢
    obtain ⟨h, err | purged⟩ := result <;> exact hdrain

theorem purgeOne_processed (jd : JobDefinitionRow) (s : Purging) (state : RequestState) :
    (purgeOne env jd s state).processed = s.processed := by
  unfold purgeOne
  dsimp only
  split
  case isTrue => rfl
  case isFalse =>
    generalize purgeState env jd state _ s.history = result
    obtain ⟨h, err | purged⟩ := result <;> rfl

theorem purgeDefinition_clears (env : Surroundings) (s : Purging) (jd : JobDefinitionRow) :
    Clears env.Faultless s.history (Expired env jd) (purgeDefinition env s jd).history := by
  have hsts := clears_foldl (purgeOne_clears env jd) terminalStates
    { s with processed := s.processed ++ [jd] }
  apply hsts.mono
  · rintro req ⟨state, -, -, hexp⟩
    exact hexp
  · intro req _ hexp
    exact ⟨req.jobState, getRetentionDays_pos_iff.mp hexp.2.1, rfl, hexp⟩

theorem purgeDefinition_processed (s : Purging) (jd : JobDefinitionRow) :
    (purgeDefinition env s jd).processed = s.processed ++ [jd] := by
  simp only [purgeDefinition, terminalStates, foldl_cons, foldl_nil, purgeOne_processed]

theorem foldl_processed (jobDefs : List JobDefinitionRow) (s : Purging) :
    (jobDefs.foldl (purgeDefinition env) s).processed = s.processed ++ jobDefs := by
  induction jobDefs generalizing s with
  | nil => simp
  | cons jd jobDefs ih =>
    rw [foldl_cons, ih, purgeDefinition_processed, append_assoc, singleton_append]

/-- What has become of a run that goes on through the rows. -/
structure Covers (env : Surroundings) (repo : JobDefinitionRepository)
    (rows : List JobDefinitionRow) (s s' : Purging) (new : List JobDefinitionRow) : Prop where
  processed : s'.processed = s.processed ++ new
  ids : (new.map JobDefinitionRow.id).Sublist (rows.map JobDefinitionRow.id)
  loaded : ∀ jd ∈ new, ∃ row ∈ repo.activeRows, row.postProcessJob = .ok jd
  clears : Clears env.Faultless s.history (fun req => ∃ jd ∈ new, Expired env jd req) s'.history

theorem covers_none (rows : List JobDefinitionRow) (s : Purging) : Covers env repo rows s s [] where
  processed := (append_nil _).symm
  ids := nil_sublist _
  loaded := by simp
  clears := (Clears.refl s.history).mono (by simp) (by simp)

theorem covers_page (env : Surroundings) {offset : ℕ} {jobDefs : List JobDefinitionRow}
    (s : Purging)
    (hquery : repo.query (newQueryContextFromIDs "" "").withAdmin offset pageSize = .ok jobDefs) :
    Covers env repo ((repo.activeRows.drop (offset * pageSize)).take pageSize) s
      (jobDefs.foldl (purgeDefinition env) s) jobDefs where
  processed := foldl_processed jobDefs s
  ids := by
    rw [JobDefinitionRepository.query_admin] at hquery
    have hids := Checked.map_eq_of_mapM (g := JobDefinitionRow.id)
      (fun _ _ hload => (JobDefinitionRow.postProcessJob_keeps hload).1) hquery
    rw [hids]
  loaded jd hmem := by
    obtain ⟨row, hrow, hload⟩ := (Checked.mem_mapM hquery).mp hmem
    exact ⟨row, mem_of_mem_drop (mem_of_mem_take hrow), hload⟩
  clears := clears_foldl (purgeDefinition_clears env) jobDefs s

theorem Covers.append {rows rows' all : List JobDefinitionRow} {s s₁ s₂ : Purging}
    {new new' : List JobDefinitionRow} (hc : Covers env repo rows s s₁ new)
    (hc' : Covers env repo rows' s₁ s₂ new') (hall : (rows ++ rows').Sublist all) :
    Covers env repo all s s₂ (new ++ new') where
  processed := by rw [hc'.processed, hc.processed, append_assoc]
  ids := by
    have hrows := hall.map JobDefinitionRow.id
    rw [map_append] at hrows ⊢
    exact (hc.ids.append hc'.ids).trans hrows
  loaded jd hmem := (mem_append.mp hmem).elim (hc.loaded jd) (hc'.loaded jd)
  clears := by
    apply (hc.clears.trans hc'.clears).mono
    · intro req hexp
      simpa [or_and_right, exists_or] using hexp
    · intro req _ hexp
      simpa [or_and_right, exists_or] using hexp

theorem take_append_drop_sublist (rows : List JobDefinitionRow) (offset : ℕ) :
    ((rows.drop (offset * pageSize)).take pageSize ++
      rows.drop ((offset + pageSize) * pageSize)).Sublist (rows.drop (offset * pageSize)) := by
  have hsplit := take_append_drop pageSize (rows.drop (offset * pageSize))
  conv_rhs => rw [← hsplit]
  apply List.Sublist.append (List.Sublist.refl _)
  rw [drop_drop]
  apply drop_sublist_drop_left
  rw [Nat.add_mul]
  apply Nat.add_le_add_left
  decide

section

variable (env : Surroundings) (repo : JobDefinitionRepository)

theorem purgePages_covers (fuel offset : ℕ) (s : Purging) :
    ∃ new, Covers env repo (repo.activeRows.drop (offset * pageSize)) s
      (purgePages env repo fuel offset s).1 new := by
  induction fuel generalizing offset s with
  | zero => exact ⟨[], covers_none _ s⟩
  | succ fuel ih =>
    unfold purgePages
    cases env.queryError offset with
    | some => exact ⟨[], covers_none _ s⟩
    | none =>
      cases hquery : repo.query (newQueryContextFromIDs "" "").withAdmin offset pageSize with
      | error => exact ⟨[], covers_none _ s⟩
      | ok jobDefs =>
        cases jobDefs with
        | nil => exact ⟨[], covers_none _ s⟩
        | cons jd jobDefs =>
          have hpage := covers_page env s hquery
          dsimp only
          split
          · have hlast := hpage.ids.trans ((take_sublist _ _).map _)
            exact ⟨_, { hpage with ids := hlast }⟩
          obtain ⟨new, hnew⟩ := ih (offset + pageSize)
            ((jd :: jobDefs).foldl (purgeDefinition env) s)
          exact ⟨_, hpage.append hnew (take_append_drop_sublist _ offset)⟩

theorem purgeAll_clears (h : History) :
    Clears env.Faultless h (fun req => ∃ jd ∈ (purgeAll env repo h).1.processed, Expired env jd req)
      (purgeAll env repo h).1.history := by
  obtain ⟨new, hnew⟩ := purgePages_covers env repo (repo.rows.length + 1) 0 ⟨h, 0, []⟩
  cases hnew.processed
  exact hnew.clears

end

theorem loaded_of_processed {h : History} (hmem : jd ∈ (purgeAll env repo h).1.processed) :
    ∃ row ∈ repo.activeRows, row.postProcessJob = .ok jd := by
  obtain ⟨new, hnew⟩ := purgePages_covers env repo (repo.rows.length + 1) 0 ⟨h, 0, []⟩
  cases hnew.processed
  exact hnew.loaded jd hmem

end RetentionManager

end Formicary

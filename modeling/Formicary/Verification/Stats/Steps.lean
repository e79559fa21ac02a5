import Formicary.Verification.Stats.Exact
import Formicary.Verification.Stats.Rows

/-! # Steps of the job manager on the counters

What each operation does to the run of its request and what it tells the registry. -/

namespace Formicary.JobManager

open RequestState Database JobRequestRepository Table Lifecycle Approval
open JobStatsRegistry (Call Calls Shifts pending_shifts pending_enters)

variable {s s' : JobManager} {req req' : JobRequest} {e : JobExecution}

theorem Sound.map_requests {g : JobRequest → JobRequest} (hs : s.Sound)
    (hreqs : s'.db.requests.rows = s.db.requests.rows.map g)
    (hident : ∀ r, (g r).summary.identity = r.summary.identity)
    (hexecutionID : ∀ r, (g r).jobExecutionID = r.jobExecutionID)
    (hway : ∀ r, s'.db.isUnderway (g r) = s.db.isUnderway r)
    (hpair : ∀ r, Paired s.db r → Paired s'.db (g r)) (hstats : s'.stats = s.stats)
    (hsups : ∀ job ∈ s'.supervisors, job ∈ s.supervisors ∨ Follows s'.db job)
    (hevs : s'.events = s.events) : s'.Sound := by
  have hname := fun r => names_of_identity (hident r)
  have hmem : ∀ r', r' ∈ s'.db.requests ↔ ∃ r ∈ s.db.requests, g r = r' := by
    intro r'
    rw [← mem_rows, hreqs, List.mem_map]
    rfl
  constructor
  · intro r' hr'
    obtain ⟨r, hr, rfl⟩ := (hmem r').mp hr'
    exact (hname r).1 ▸ hs.named r hr
  · intro r' hr'
    obtain ⟨r, hr, rfl⟩ := (hmem r').mp hr'
    exact hpair r (hs.paired r hr)
  · intro job hjob
    rcases hsups job hjob with hold | hnew
    · obtain ⟨r, hfind, hexec, hsame⟩ := hs.followed job hold
      obtain ⟨hr, hrid⟩ := find?_eq_some_iff.mp hfind
      exact ⟨g r, find?_eq_some_iff.mpr ⟨(hmem _).mpr ⟨r, hr, rfl⟩, (hname r).1.trans hrid⟩,
        (hexecutionID r).trans hexec, hsame.trans (hident r).symm⟩
    · exact hnew
  · exact hevs.trans hs.events
  · intro key
    have hcount : s'.db.underwayCount key = s.db.underwayCount key := by
      unfold underwayCount affected
      rw [hreqs, List.countP_map]
      congr 1
      funext r
      simp only [Function.comp, (hname r).2.1, hway]
    rw [hcount, hstats]
    exact hs.counts key
  · intro userID id hu
    rw [hstats, hs.listed userID id hu]
    constructor
    · rintro ⟨r, hr, hrid, huser, h⟩
      exact ⟨g r, (hmem _).mpr ⟨r, hr, rfl⟩, (hname r).1.trans hrid, (hname r).2.2.trans huser,
        (hway r).trans h⟩
    · rintro ⟨r', hr', hrid, huser, h⟩
      obtain ⟨r, hr, rfl⟩ := (hmem r').mp hr'
      exact ⟨r, hr, (hname r).1 ▸ hrid, (hname r).2.2 ▸ huser, hway r ▸ h⟩

variable {now : Time}

theorem Sound.saveJobRequest (hs : s.Sound) (he : s.saveJobRequest req now = some s') :
    s'.Sound := by
  obtain ⟨hid, he⟩ := Option.ite_none_left_eq_some.mp he
  obtain ⟨requests, hins, rfl⟩ := Option.map_eq_some_iff.mp he
  have hnew : ∀ db : Database, db.isUnderway (pendingRequest req now) = false := fun _ => rfl
  have hfresh := (insert?_eq_some hins).1
  constructor
  · intro r hr
    rcases (mem_insert? hins).mp hr with rfl | hr
    · exact hid
    · exact hs.named r hr
  · intro r hr
    rcases (mem_insert? hins).mp hr with rfl | hr
    · exact .inl ⟨rfl, .inl rfl⟩
    · exact hs.paired r hr
  · intro job hjob
    obtain ⟨r, hfind, hrest⟩ := hs.followed job hjob
    obtain ⟨hr, hrid⟩ := find?_eq_some_iff.mp hfind
    exact ⟨r, find?_eq_some_iff.mpr ⟨(mem_insert? hins).mpr (.inr hr), hrid⟩, hrest⟩
  · exact hs.events
  · intro key
    have hshift := pending_shifts s.stats (pendingRequest req now).summary key
    simp only [Call.delta, ite_self, Int32.add_zero] at hshift
    have hcount : underwayCount { s.db with requests := requests } key =
        s.db.underwayCount key := by
      unfold underwayCount affected
      rw [(insert?_eq_some hins).2, List.countP_cons, hnew]
      simp [isUnderway]
    rw [hshift, hs.counts key, hcount]
  · intro userID id hu
    rw [pending_enters s.stats _ userID id hu]
    rw [hs.listed userID id hu]
    constructor
    · rintro ⟨⟨r, hr, hrest⟩, -⟩
      exact ⟨r, (mem_insert? hins).mpr (.inr hr), hrest⟩
    rintro ⟨r, hr, rfl, huser, hway⟩
    rcases (mem_insert? hins).mp hr with rfl | hr
    · cases hway
    · exact ⟨⟨r, hr, rfl, huser, hway⟩, fun hsame => hfresh r hr hsame.2⟩

/-- An execution of the request has been inserted or reset to READY. -/
structure Starts (db db' : Database) (req : JobRequest) (e : JobExecution) : Prop where
  requests : db'.requests = db.requests
  found : db'.executions.find? e.id = some e
  others : ∀ id, id ≠ e.id → db'.executions.find? id = db.executions.find? id
  state : e.jobState = ready
  named : e.id ≠ ""
  active : e.active = true
  identity : e.summary.identity = req.summary.identity
  executionID : req.jobExecutionID = some e.id ∨
    req.jobExecutionID = none ∧ db.executions.find? e.id = none

variable {freshID : String}

theorem Sound.startJobExecution (hs : s.Sound) (hmem : req ∈ s.db.requests)
    (hstate : req.jobState = pending ∨ req.jobState = paused)
    (hne : freshID ≠ "") (hfresh : s.db.executions.find? freshID = none) (now : Time) :
    ∃ db execution e, s.startJobExecution req freshID now =
        ({ s with db := db, stats := s.stats.started execution.summary now }, .ok execution) ∧
      execution.summary.identity = req.summary.identity ∧ execution.id = e.id ∧
      Starts s.db db req e := by
  rcases hs.paired req hmem with ⟨hnone, _⟩ | ⟨e, he, hpairs⟩
  · obtain ⟨executions, hins⟩ := exists_insert?
      (t := s.db.executions) (a := JobExecutionRepository.newJobExecution req freshID now) hfresh
    refine ⟨{ s.db with executions := executions },
      JobExecutionRepository.newJobExecution req freshID now,
      JobExecutionRepository.newJobExecution req freshID now, ?_, rfl, rfl, ?_⟩
    · simp [JobManager.startJobExecution, lookupExecution, hnone, JobExecutionRepository.save, hins]
    exact
      { requests := rfl
        found := by rw [find?_insert? hins, if_pos rfl]
        others := fun id hid => by rw [find?_insert? hins, if_neg hid]
        state := rfl
        named := hne
        active := rfl
        identity := rfl
        executionID := .inr ⟨hnone, hfresh⟩ }
  · obtain ⟨db, hlook, hreqs, hexecs⟩ := lookupExecution_eq he hpairs now
    have hlive : e.jobState.isTerminal = false := by
      have hagr := hpairs.states
      rcases hstate with hstate | hstate <;> rw [hstate] at hagr <;>
        simp only [agrees, Bool.or_eq_true, beq_iff_eq] at hagr
      · rcases hagr with (hx | hx) | hx <;> rw [hx] <;> rfl
      · rw [hagr]
        rfl
    have he' : db.executions.find? e.id = some e := hexecs ▸ he
    have hreset := JobExecutionRepository.resetStateToReady_eq he' hlive now
    have hrow : ({ e with jobRequestID := req.id } : JobExecution) = e := by
      rw [← hpairs.jobRequestID]
    set e' : JobExecution := { e with jobState := ready, updatedAt := now }
    refine ⟨{ db with executions := db.executions.set e' }, e, e', ?_, hpairs.identity, rfl, ?_⟩
    · simp [JobManager.startJobExecution, hlook, Option.filter, hlive, hrow, hreset]
    have hfind : ∀ id, (db.executions.set e').find? id =
        if id = e.id then some e' else s.db.executions.find? id := by
      rw [hexecs]
      exact find?_set (find?_eq_some_iff.mp he).1 (rfl : e'.id = e.id)
    exact
      { requests := hreqs
        found := by rw [hfind, if_pos rfl]
        others := fun id hid => by rw [hfind, if_neg hid]
        state := rfl
        __ := hpairs
        executionID := .inl hpairs.id }

/-- What scheduling a request has done before the launch event is sent. -/
structure Schedules (s s' : JobManager) (req req' : JobRequest) (e : JobExecution) : Prop where
  replaces : Replaces s.db s'.db req req'
  found : s'.db.executions.find? e.id = some e
  pairs : Pairs req' e
  state : req'.jobState = ready
  executionID : req.jobExecutionID = none ∨ req'.jobExecutionID = req.jobExecutionID
  calls : Calls s.stats s'.stats req.summary .started
  supervisors : s'.supervisors = s.supervisors
  events : s'.events = []

theorem Sound.createJobExecution (hs : s.Sound) (hmem : req ∈ s.db.requests)
    (hstate : req.jobState = pending ∨ req.jobState = paused)
    (hne : freshID ≠ "") (hfresh : s.db.executions.find? freshID = none) (c : Clock) :
    ∃ s₁ req' e request execution, (∀ sent, s.createJobExecution req freshID sent c =
        if sent then s₁
        else s₁.absorb ((s₁.machine request execution).revertRequestToPendingPaused
          (revertState req) "failed to send launch event" c).1) ∧
      request.id = req.id ∧ execution.id = e.id ∧ Schedules s s₁ req req' e := by
  obtain ⟨db, execution, e, hstart, hident, hid, hstarts⟩ :=
    hs.startJobExecution hmem hstate hne hfresh c.now
  obtain ⟨req', hready, hstate', heid, hident'⟩ :=
    setReadyToExecute_eq (hstarts.requests ▸ hmem) (hs.named req hmem) hstate
      hstarts.named hstarts.found req.lastJobExecutionID c.now
  refine ⟨{ s with
    db := { db with requests := db.requests.set req' }
    stats := s.stats.started execution.summary c.now }, req', e,
    { req with jobExecutionID := some execution.id, jobState := ready }, execution, ?_, rfl, hid,
    ?_⟩
  · intro sent
    simp only [JobManager.createJobExecution, hstart, hid, hready]
  exact
    { replaces :=
        { mem := hmem
          requests := congrArg (set · req') hstarts.requests
          identity := hident'
          executions := fun id hne => hstarts.others id fun he => hne (by rw [heid, he])
          executionID := by
            rw [heid]
            rcases hstarts.executionID with hsame | ⟨_, hnew⟩
            · exact .inl hsame.symm
            · exact .inr ⟨e.id, rfl, hnew⟩ }
      found := hstarts.found
      pairs := ⟨heid, hstarts.named, hstarts.active, hstarts.identity.trans hident'.symm, by
        rw [hstate', hstarts.state]
        rfl⟩
      state := hstate'
      executionID := by
        rw [heid]
        rcases hstarts.executionID with hsame | ⟨hnone, _⟩
        · exact .inr hsame.symm
        · exact .inl hnone
      calls := (JobStatsRegistry.started_calls c.now).of_identity hident
      supervisors := rfl
      events := hs.events }

theorem Schedules.isUnderway (h : Schedules s s' req req' e) : s'.db.isUnderway req' = true := by
  rw [h.pairs.isUnderway h.found, h.state]
  rfl

theorem Schedules.exactIff (hs : s.Sound) (h : Schedules s s' req req' e) :
    s'.ExactIff (s.db.isUnderway req = false ∧
      s.db.underwayCount req.getUserJobTypeKey + 1 < 2 ^ 31) where
  counts := by
    rw [hs.counts_iff h.replaces h.calls.shifts, h.isUnderway]
    cases s.db.isUnderway req <;> simp [Call.of]
  sound hcnt := hs.replace h.replaces h.calls hcnt (.inr ⟨e, h.found, h.pairs⟩) h.executionID
    (fun _ hjob => .inl (h.supervisors ▸ hjob)) h.events

theorem revertState_eq (req : JobRequest)
    (hstate : req.jobState = pending ∨ req.jobState = paused) :
    revertState req = req.jobState := by
  rcases hstate with hstate | hstate <;> simp [revertState, hstate]

variable {revertState : RequestState}

theorem revertRequestToPendingPaused_spec (m : JobStateMachine) (hmem : req ∈ m.db.requests)
    (hid : m.request.id = req.id) (hstate : req.jobState = ready)
    (he : m.db.executions.find? e.id = some e) (hexec : m.execution.id = e.id) (hnamed : e.id ≠ "")
    (hact : e.active = true)
    (hrev : revertState = pending ∨ revertState = paused) (err : String) (c : Clock) :
    ∃ m' req' e', (m.revertRequestToPendingPaused revertState err c).1 = m' ∧
      m'.db.requests = m.db.requests.set req' ∧ m'.db.executions = m.db.executions.set e' ∧
      req'.summary.identity = req.summary.identity ∧ req'.jobExecutionID = req.jobExecutionID ∧
      e'.id = e.id ∧ e'.active = false ∧
      m'.effects = if revertState = pending then .recorded (.pending false) :: m.effects
        else m.effects := by
  have hok : ready.canTransitionTo revertState = true := by
    rcases hrev with rfl | rfl <;> rfl
  obtain ⟨req', hupd, -, hid', hident'⟩ := updateJobState_eq hmem hstate hok err "" c.delay 0
    m.request.pausedCount c.userKey c.now
  rw [← hid] at hupd
  obtain ⟨db', hdel, hreqs, hexecs⟩ := JobExecutionRepository.delete_eq
    { m.db with requests := m.db.requests.set req' } he hnamed hact c.now
  rw [← hexec] at hdel
  refine ⟨_, req', { e with active := false, updatedAt := c.now }, rfl, ?_, ?_, hident', hid', rfl,
    rfl, ?_⟩
  all_goals
    unfold JobStateMachine.revertRequestToPendingPaused JobStateMachine.updateJobRequestState
      JobStateMachine.save
    rw [hupd]
    by_cases hpend : revertState = pending <;>
      simp [hpend, JobStateMachine.report, hdel, hreqs, hexecs]

theorem Schedules.not_counts_reverted {s₁ : JobManager} (hs : s.Sound)
    (h : Schedules s s₁ req req' e) {request : JobRequest} {execution : JobExecution}
    (hreq : request.id = req.id) (hex : execution.id = e.id)
    (hrev : revertState = pending ∨ revertState = paused)
    (err : String) (c : Clock) :
    ¬ (s₁.absorb ((s₁.machine request execution).revertRequestToPendingPaused revertState err
      c).1).Counts := by
  obtain ⟨m', req'', e', hm', hreqs, hexecs, hident, hid, he', hact, heff⟩ :=
    revertRequestToPendingPaused_spec (s₁.machine request execution) h.replaces.mem_self
      (hreq.trans h.replaces.id_eq.symm) h.state h.found hex h.pairs.named h.pairs.active
      hrev err c
  rw [hm']
  have hreverts : Replaces s₁.db m'.db req' req'' :=
    Replaces.of_both h.found hexecs he' h.replaces.mem_self h.pairs hreqs hident hid
  have hrepl : Replaces s.db (s₁.absorb m').db req req'' := h.replaces.trans hreverts hid
  have hway : (s₁.absorb m').db.isUnderway req'' = false := by
    have hfind := find?_executions_set h.found hexecs he' e.id
    have hany : m'.db.isUnderway req'' = false := by
      simp [Database.isUnderway, hid, h.pairs.id, hfind, JobExecution.isUnderway, hact]
    exact hany
  have hshift : Shifts s.stats (s₁.absorb m').stats req.getUserJobTypeKey .started := by
    refine h.calls.shifts.trans_silent ?_
    unfold absorb
    rw [heff]
    split
    · exact (pending_shifts _ _).silent_key
    · exact Shifts.refl s₁.stats _
  rw [hs.counts_iff hrepl hshift, hway]
  cases s.db.isUnderway req <;> simp [Call.of]

section Failed

variable (hs : s.Sound) (hmem : req ∈ s.db.requests)
  (hok : req.jobState.canTransitionTo failed = true) {err errorCode userKey : String}
  {delay now : Time} {pausedCount : ℕ}
  (hs' : s' = { s with
    db := commit s.db (updateJobState s.db req.id
      (some req.jobState) failed err errorCode delay 0 pausedCount userKey now) })
include hs hmem hok hs'

theorem Sound.requestFailed : s'.ExactIff (s.db.isUnderway req = false) := by
  obtain ⟨req', hupd, hstate', hid', hident'⟩ :=
    updateJobState_eq hmem rfl hok err errorCode delay 0 pausedCount userKey now
  rw [hupd] at hs'
  have hrepl : Replaces s.db s'.db req req' := by
    subst hs'
    exact Replaces.of_request hmem rfl rfl hident' hid'
  have hway : s'.db.isUnderway req' = false := by
    simp only [isUnderway, hstate']
    rfl
  have hcalls : Calls s.stats s'.stats req.summary .silent := hs' ▸ Calls.refl s.stats _
  have hcnt : s'.Counts ↔ s.db.isUnderway req = false := by
    rw [hs.counts_iff hrepl hcalls.shifts, hway]
    cases s.db.isUnderway req <;> simp [Call.of]
  refine ⟨hcnt, fun hright => hs.replace hrepl hcalls hright ?_ (.inr hid')
    (hs' ▸ fun _ hjob => .inl hjob) (hs' ▸ hs.events)⟩
  · rcases hs.paired req hmem with ⟨hnone, _⟩ | ⟨e, he, hpairs⟩
    · exact .inl ⟨hid'.trans hnone, .inr hstate'⟩
    -- only a paused request has an execution and is not under way
    have hpause : req.jobState = paused := by
      have hwas := hcnt.mp hright
      rw [hpairs.isUnderway he] at hwas
      revert hwas hok
      cases req.jobState <;> decide
    have hagr := hpairs.states
    rw [hpause] at hagr
    refine .inr ⟨e, hs' ▸ he, hpairs.of_request hid' hident' ?_⟩
    rw [hstate', beq_iff_eq.mp hagr]
    rfl

end Failed

variable {id : String}

theorem Sound.prepareLaunch (hs : s.Sound) (he : s.prepareLaunch id now = some s') : s'.Sound := by
  unfold JobManager.prepareLaunch at he
  cases hfind : s.db.requests.find? id with
  | none => simp [hfind] at he
  | some req =>
    obtain ⟨hmem, hid⟩ := find?_eq_some_iff.mp hfind
    rcases hs.paired req hmem with ⟨hnone, _⟩ | ⟨e, hrow, hpairs⟩
    · simp [hfind, lookupExecution, hnone] at he
    obtain ⟨db, hlook, hreqs, hexecs⟩ := lookupExecution_eq hrow hpairs now
    simp only [hfind, hlook] at he
    obtain ⟨_, hs'⟩ := Option.ite_none_right_eq_some.mp he
    cases hs'
    refine hs.map_requests (g := fun r => r) (by simp [hreqs]) (fun _ => rfl) (fun _ => rfl) ?_ ?_
      rfl (fun job hjob => ?_) rfl
    · simp [isUnderway, hexecs]
    · simp [Paired, hexecs]
    rcases List.mem_cons.mp hjob with rfl | hjob
    · exact .inr ⟨req, by rw [hreqs]; exact find?_eq_some_iff.mpr ⟨hmem, rfl⟩,
        hpairs.id, hpairs.identity⟩
    · exact .inl hjob

theorem Sound.not_counts_of_cancelled (hs : s.Sound) (hmem : req ∈ s.db.requests)
    (hdb : s'.db = s.db) (hstats : s'.stats = s.stats.cancelled req.summary) : ¬ s'.Counts := by
  have hrepl : Replaces s.db s'.db req req := by
    rw [hdb]
    exact Replaces.refl hmem
  have hcalls : Calls s.stats s'.stats req.summary .ended :=
    hstats ▸ JobStatsRegistry.cancelled_calls
  rw [hs.counts_iff hrepl hcalls.shifts, hdb]
  cases s.db.isUnderway req <;> simp [Call.of]

variable {db : Database} {qc : QueryContext}

theorem cancelTransaction_spec (hmem : req ∈ db.requests)
    (hpair : Paired db req) (hstate : req.jobState.isTerminal = false)
    (hqc : qc.orgElseUserWhere false req.userID req.organizationID = true) (now : Time) :
    ∃ db' req', cancelTransaction db qc req now = .ok db' ∧
      Replaces db db' req req' ∧ req'.jobState = cancelled ∧
      req'.jobExecutionID = req.jobExecutionID ∧ (db.isUnderway req = true → Paired db' req') := by
  unfold cancelTransaction
  rw [updateOne?_eq_set _ (k := req.id) (fun r _ hr => ?_) hmem (by simp [hstate, hqc])]
  swap
  · simp only [Bool.and_eq_true, beq_iff_eq] at hr
    exact hr.1.1
  rcases hpair with ⟨hnone, _⟩ | ⟨e, he, hpairs⟩
  · simp only [hnone]
    refine ⟨_, _, rfl, Replaces.of_request hmem rfl rfl rfl hnone.symm, rfl, rfl, fun hway => ?_⟩
    rw [isUnderway_of_none hnone] at hway
    cases hway
  have hrow := (find?_eq_some_iff.mp he).1
  have howner := hpairs.identity
  simp only [JobRequestSummary.identity, JobExecution.summary, JobRequest.summary,
    Prod.mk.injEq] at howner
  simp only [hpairs.id]
  rw [update_eq_set _ (fun x _ hx => beq_iff_eq.mp ((Bool.and_eq_true _ _).mp hx).1) hrow
    (by simp [howner.2.2.2.1, howner.2.2.2.2, hqc])]
  refine ⟨_, _, rfl, Replaces.of_both he rfl rfl hmem hpairs rfl rfl hpairs.id.symm, rfl, rfl,
    fun _ => paired_of_both he rfl rfl ?_⟩
  exact ⟨rfl, hpairs.named, hpairs.active, hpairs.identity, rfl⟩

theorem cancelTransaction_error (hmem : req ∈ db.requests)
    (hqc : qc.orgElseUserWhere false req.userID req.organizationID = false) (now : Time) :
    ∃ err, cancelTransaction db qc req now = .error err := by
  unfold cancelTransaction
  rw [updateOne?_eq_none]
  · exact ⟨_, rfl⟩
  · intro r hr
    by_cases hid : r.id = req.id
    · simp [eq_of_key_eq hr hmem hid, hqc]
    · simp [hid]

theorem cancel_eq (hget : get db qc id = .ok req) (hstate : req.jobState.isTerminal = false) :
    cancel db qc id now = cancelTransaction db qc req now := by
  simp [cancel, cancelLoad, hget, hstate]

theorem mem_of_get (hget : JobRequestRepository.get db qc id = .ok req) : req ∈ db.requests :=
  (find?_eq_some_iff.mp (request_of_get hget).2.1).1

def waits (rs : RequestState) : Bool :=
  rs == pending || rs == paused || rs == manualApprovalRequired

theorem Sound.cancelJobRequest (hs : s.Sound) (hget : get s.db qc id = .ok req) (now : Time) :
    (s.cancelJobRequest qc id now).ExactIff (s.db.isUnderway req = true ∧
      waits req.jobState = true ∧
      qc.orgElseUserWhere false req.userID req.organizationID = true) := by
  have hmem := mem_of_get hget
  by_cases hwaits : waits req.jobState = true
  · have hor : req.jobState = pending ∨ req.jobState = paused ∨
        req.jobState = manualApprovalRequired := by
      simpa [waits, or_assoc] using hwaits
    have hlive : req.jobState.isTerminal = false := by
      rcases hor with h | h | h <;> rw [h] <;> rfl
    simp only [JobManager.cancelJobRequest, hget, hor, if_true, cancel_eq hget hlive]
    by_cases hqc : qc.orgElseUserWhere false req.userID req.organizationID = true
    · obtain ⟨db', req', hcanc, hrepl, hstate', hid', hpair⟩ :=
        cancelTransaction_spec hmem (hs.paired req hmem) hlive hqc now
      rw [hcanc]
      have hcalls : Calls s.stats (s.stats.cancelled req.summary) req.summary .ended :=
        JobStatsRegistry.cancelled_calls
      have hcnt : JobManager.Counts { s with
          db := commit s.db (.ok db'), stats := s.stats.cancelled req.summary } ↔
          s.db.isUnderway req = true := by
        have hway : db'.isUnderway req' = false := by
          simp only [isUnderway, hstate']
          rfl
        rw [hs.counts_iff hrepl hcalls.shifts]
        change _ = Call.of _ (db'.isUnderway req') ∧ _ ↔ _
        rw [hway]
        cases s.db.isUnderway req <;> simp [Call.of]
      refine ⟨by simp [hcnt, hwaits, hqc], fun hright => ?_⟩
      exact hs.replace hrepl hcalls hright (hpair (hcnt.mp hright)) (.inr hid')
        (fun job hjob => .inl hjob) hs.events
    · -- the caller may read the request but not write it
      obtain ⟨err, herr⟩ := cancelTransaction_error hmem (Bool.eq_false_iff.mpr hqc) now
      rw [herr]
      exact exactIff_of_not (hs.not_counts_of_cancelled hmem rfl rfl) fun h => hqc h.2.2
  · have hor : ¬ (req.jobState = pending ∨ req.jobState = paused ∨
        req.jobState = manualApprovalRequired) := by
      simpa [waits, or_assoc] using hwaits
    simp only [JobManager.cancelJobRequest, hget, hor, if_false]
    exact exactIff_of_not (hs.not_counts_of_cancelled hmem rfl rfl) fun h => hwaits h.2.1

theorem Sound.pauseJobRequest (hs : s.Sound) (hget : get s.db qc id = .ok req) :
    (s.pauseJobRequest qc id).ExactIff (req.jobState ≠ executing) := by
  by_cases hexec : req.jobState = executing
  · simp only [JobManager.pauseJobRequest, hget, hexec, if_true]
    exact exactIff_of_not (hs.not_counts_of_cancelled (mem_of_get hget) rfl rfl) fun h => h rfl
  · simp only [JobManager.pauseJobRequest, hget, hexec, if_false]
    exact hs.exactIff hexec

section Waiting

variable (hstate : req.jobState = manualApprovalRequired)
include hstate

theorem Sound.waiting (hs : s.Sound) (hmem : req ∈ s.db.requests) :
    ∃ e, s.db.executions.find? e.id = some e ∧ Pairs req e ∧
      e.jobState = manualApprovalRequired ∧ s.db.isUnderway req = true := by
  obtain ⟨e, he, hpairs⟩ := (hs.paired req hmem).exists_pairs (by simp [hstate]) (by simp [hstate])
  have hagr := hpairs.states
  rw [hstate] at hagr
  refine ⟨e, he, hpairs, beq_iff_eq.mp hagr, ?_⟩
  rw [hpairs.isUnderway he, hstate]
  rfl

theorem update_waitingRequest (qc : QueryContext) (hmem : req ∈ db.requests)
    (f : JobRequest → JobRequest) (hf : ∀ r, (f r).id = r.id) :
    db.requests.update (waitingRequest qc req) f hf = db.requests.set
        (if qc.orgElseUserWhere false req.userID req.organizationID then f req else req) := by
  split
  · next hqc =>
    refine update_eq_set hf (fun r _ hr => ?_) hmem (by simp [waitingRequest, hstate, hqc])
    simp only [waitingRequest, Bool.and_eq_true, beq_iff_eq] at hr
    exact hr.1.1
  · next hqc =>
    rw [set_self hmem]
    refine update_eq_self fun r hr => ?_
    by_cases hid : r.id = req.id
    · rw [eq_of_key_eq hr hmem hid]
      simp [waitingRequest, hqc]
    · simp [waitingRequest, hid]

theorem exists_set_waitingRequest (qc : QueryContext) (hmem : req ∈ db.requests)
    {f : JobRequest → JobRequest} (hf : ∀ r, (f r).id = r.id)
    (hid : (f req).jobExecutionID = req.jobExecutionID)
    (hident : (f req).summary.identity = req.summary.identity) :
    ∃ req', db.requests.update (waitingRequest qc req) f hf = db.requests.set req' ∧
      req'.jobExecutionID = req.jobExecutionID ∧
      req'.summary.identity = req.summary.identity ∧
      (req'.jobState = (f req).jobState ∨ req'.jobState = manualApprovalRequired) := by
  rw [update_waitingRequest hstate qc hmem f hf]
  split
  · exact ⟨f req, rfl, hid, hident, .inl rfl⟩
  · exact ⟨req, rfl, rfl, rfl, .inr hstate⟩

variable {qc : QueryContext} {taskType taskExecutionID decidedBy comments userKey : String}
  {now : Time}

theorem Sound.approve (hs : s.Sound) (hmem : req ∈ s.db.requests)
    (hs' : s' = { s with
      db := finalizeApproval s.db qc req taskType taskExecutionID decidedBy comments
        now }) : s'.Sound := by
  obtain ⟨e, he, hpairs, hexec, hway⟩ := hs.waiting hstate hmem
  obtain ⟨req', hreqs, hid', hident', hstate'⟩ := exists_set_waitingRequest hstate qc hmem
    (f := fun r =>
      { r with jobState := pending, errorCode := "", errorMessage := "", updatedAt := now })
    (fun _ => rfl) rfl rfl
  have hpairs' : Pairs req' e := by
    refine hpairs.of_request hid' hident' ?_
    rcases hstate' with h | h <;> rw [h, hexec] <;> rfl
  have hrepl : Replaces s.db s'.db req req' := by
    subst hs'
    exact Replaces.of_request hmem hreqs rfl hident' hid'
  have hcalls : Calls s.stats s'.stats req.summary .silent := hs' ▸ Calls.refl s.stats _
  -- the execution is not touched, so the run goes on
  have he' : s'.db.executions.find? e.id = some e := hs' ▸ he
  refine hs.replace hrepl hcalls ?_ (.inr ⟨e, he', hpairs'⟩) (.inr hid')
    (hs' ▸ fun _ hjob => .inl hjob) (hs' ▸ hs.events)
  rw [hs.counts_iff hrepl hcalls.shifts, hway, hpairs'.isUnderway he']
  rcases hstate' with h | h <;> rw [h] <;> exact ⟨rfl, nofun⟩

theorem Sound.not_counts_reject (hs : s.Sound) (hmem : req ∈ s.db.requests)
    (hs' : s' = { s with
      db := finalizeRejection s.db qc req taskType taskExecutionID decidedBy comments
        userKey now }) : ¬ s'.Counts := by
  obtain ⟨e, he, hpairs, hexec, hway⟩ := hs.waiting hstate hmem
  have hrow := (find?_eq_some_iff.mp he).1
  obtain ⟨req', hreqs, hid', hident', _⟩ := exists_set_waitingRequest hstate qc hmem (f := fun r =>
      { r with
        jobState := failed
        errorCode := "ERR_MANUAL_REJECTION"
        errorMessage := decisionMessage "Rejected" decidedBy comments
        userKey := userKey
        updatedAt := now })
    (fun _ => rfl) rfl rfl
  obtain ⟨e', hexecs, he', hfail⟩ : ∃ e', s'.db.executions = s.db.executions.set e' ∧
      e'.id = e.id ∧ e'.jobState = failed := by
    rw [hs']
    refine ⟨_, update_eq_set (fun _ => by rfl) (fun x _ hx => ?_) hrow (by simp [hpairs.id, hexec]),
      rfl, rfl⟩
    simpa [hpairs.id] using ((Bool.and_eq_true _ _).mp hx).1
  have hrepl : Replaces s.db s'.db req req' :=
    Replaces.of_both he hexecs he' hmem hpairs (hs' ▸ hreqs) hident' hid'
  have hway' : s'.db.isUnderway req' = false := by
    have hfind := find?_executions_set he hexecs he' e.id
    simp [isUnderway, hid', hpairs.id, hfind, JobExecution.isUnderway, isTerminal, hfail]
  have hshift : Shifts s.stats s'.stats req.getUserJobTypeKey .silent :=
    hs' ▸ Shifts.refl s.stats _
  rw [hs.counts_iff hrepl hshift, hway, hway']
  simp [Call.of]

end Waiting

theorem Sound.requeueOrphanRequests (hs : s.Sound) (staleInterval now : Time) :
    JobManager.Sound { s with
      db := JobRequestRepository.requeueOrphanRequests s.db staleInterval now } := by
  generalize hdb' : JobRequestRepository.requeueOrphanRequests s.db staleInterval now = db'
  obtain ⟨g, hreqs, hexecs, hg⟩ : ∃ g : JobRequest → JobRequest,
      db'.requests.rows = s.db.requests.rows.map g ∧ db'.executions = s.db.executions ∧
      ∀ r, (g r).summary.identity = r.summary.identity ∧ (g r).jobExecutionID = r.jobExecutionID ∧
        (g r = r ∨ (r.jobState = started ∨ r.jobState = ready ∨ r.jobState = executing) ∧
          (g r).jobState = pending) := by
    rw [← hdb']
    refine ⟨_, rfl, rfl, fun r => ?_⟩
    split
    · next h =>
      have horph := ((Bool.and_eq_true _ _).mp h).1
      exact ⟨rfl, rfl, .inr ⟨by simpa [orphanStates] using horph, rfl⟩⟩
    · exact ⟨rfl, rfl, .inl rfl⟩
  refine hs.map_requests hreqs (fun r => (hg r).1) (fun r => (hg r).2.1) ?_ ?_ rfl
    (fun _ hjob => .inl hjob) rfl
  · intro r
    unfold isUnderway
    rw [(hg r).2.1, hexecs]
    rcases (hg r).2.2 with hsame | ⟨horph, hpend⟩
    · rw [hsame]
    have hlive : r.jobState.isTerminal = false := by
      rcases horph with h | h | h <;> rw [h] <;> rfl
    rw [hpend, hlive]
    rfl
  · intro r hpair
    rcases (hg r).2.2 with hsame | ⟨horph, hpend⟩
    · unfold Paired at hpair ⊢
      rwa [hsame, hexecs]
    obtain ⟨e, he, hpairs⟩ := hpair.exists_pairs (by rcases horph with h | h | h <;> simp [h])
      (by rcases horph with h | h | h <;> simp [h])
    refine .inr ⟨e, hexecs ▸ he, hpairs.of_request (hg r).2.1 (hg r).1 ?_⟩
    have hagr := hpairs.states
    rw [hpend]
    rcases horph with h | h | h <;> rw [h] at hagr
    · cases hagr
    · rw [beq_iff_eq.mp hagr]
      rfl
    · rw [beq_iff_eq.mp hagr]
      rfl

end Formicary.JobManager

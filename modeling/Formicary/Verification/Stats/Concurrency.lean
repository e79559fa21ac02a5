import Formicary.Model.ScheduleJob
import Formicary.Verification.Definition.Versions
import Formicary.Verification.Resource.Index
import Formicary.Verification.Stats.Counter
import Formicary.Verification.Stats.Running

/-! # The limit on concurrent runs

The scheduler compares the limit stored with a version of a definition with a counter. -/

namespace Formicary.JobScheduler

open RequestState JobDefinitionRepository JobRequestRepository JobManager Table Option Lifecycle
open List

variable {s s' : JobScheduler} {tenant : Tenant} {jobType : String}

def ofJob (definitions : JobDefinitionRepository) (tenant : Tenant) (jobType : String)
    (req : JobRequest) : Bool :=
  (definitions.find? req.jobDefinitionID).any fun row =>
    row.tenant == tenant && row.jobType == jobType

/-- The number of requests of the job that are READY or EXECUTING. -/
def running (s : JobScheduler) (tenant : Tenant) (jobType : String) : ℕ :=
  s.manager.db.requests.affected fun req =>
    req.isRunning && ofJob s.definitions tenant jobType req

def Pinned (s : JobScheduler) : Prop :=
  ∀ req ∈ s.manager.db.requests, ∃ row, s.definitions.find? req.jobDefinitionID = some row

variable {manager : JobManager} {started : Option String}

theorem pinned_of_settle (h : s.Pinned) (hsettle : s.manager.db.Settle started manager.db) :
    JobScheduler.Pinned { s with manager := manager } := by
  intro req' hreq'
  obtain ⟨req, hreq, -, hset⟩ := hsettle.origin req' hreq'
  rw [hset.jobDefinitionID]
  exact h req hreq

theorem ofJob_congr {definitions : JobDefinitionRepository} {req req' : JobRequest}
    (h : req'.jobDefinitionID = req.jobDefinitionID) :
    ofJob definitions tenant jobType req' = ofJob definitions tenant jobType req := by
  rw [ofJob, ofJob, h]

theorem running_le (hsettle : s.manager.db.Settle started manager.db)
    (hstart : ∀ req ∈ s.manager.db.requests, started = some req.id →
      ofJob s.definitions tenant jobType req = false) :
    running { s with manager := manager } tenant jobType ≤ s.running tenant jobType := by
  refine Table.Evolves.affected_le hsettle fun req hreq req' _ _ hset hsel => ?_
  obtain ⟨hrun, hof⟩ := Bool.and_eq_true_iff.mp hsel
  have hof : ofJob s.definitions tenant jobType req = true :=
    (ofJob_congr hset.jobDefinitionID).symm.trans hof
  rcases hset.isRunning hrun with hrun | hid
  · exact Bool.and_eq_true_iff.mpr ⟨hrun, hof⟩
  rw [hstart req hreq hid] at hof
  cases hof

theorem running_le_add_one {id : String} (hsettle : s.manager.db.Settle (some id) manager.db) :
    running { s with manager := manager } tenant jobType ≤ s.running tenant jobType + 1 := by
  refine Table.Evolves.affected_le_add_one (k := id) hsettle fun req hreq req' _ _ hset hsel => ?_
  obtain ⟨hrun, hof⟩ := Bool.and_eq_true_iff.mp hsel
  rcases hset.isRunning hrun with hrun | hid
  · exact .inl (Bool.and_eq_true_iff.mpr ⟨hrun, (ofJob_congr hset.jobDefinitionID).symm.trans hof⟩)
  · exact .inr (some.inj hid).symm

variable {manager' : JobManager}

theorem handle_settle {action : JobManager.Action}
    (h : handles action = true) (hstep : manager.step action = some manager') :
    manager.db.Settle none manager'.db := by
  cases action with
  | scheduleFailed id err errorCode c =>
    obtain ⟨req, -, rfl⟩ := map_eq_some_iff.mp hstep
    exact JobManager.scheduleFailed_settle req err errorCode c
  | launch =>
    unfold JobManager.step JobManager.prepareLaunch at hstep
    simp only at hstep
    split at hstep
    · cases hstep
    split at hstep
    · cases hstep
    next hlook =>
    split at hstep
    · cases hstep
      exact .same (lookupExecution_spec hlook).1
    · cases hstep
  | launchFailed =>
    obtain ⟨req, -, rfl⟩ := map_eq_some_iff.mp hstep
    exact .commit fun _ hdb =>
      settle_of_moves (.inl ⟨by decide, by decide⟩) (updateJobState_updates hdb).requests
  | supervise i op c =>
    have hperf : ∀ job, manager.db.Settle none (manager.supervise i job op c).db := fun job =>
      JobManager.perform_settle (manager.machine job.request job.execution) c op
    unfold JobManager.step at hstep
    simp only at hstep
    split at hstep
    · cases hstep
    next job _ =>
    split at hstep
    · split at hstep
      · cases hstep
        exact hperf job
      · cases hstep
    · cases hstep
      exact hperf job
  | saveJobRequest | schedule | cancelJobRequest | overrideCancelRequest | pauseJobRequest | approve
  | reject | requeueOrphanRequests => cases h

theorem schedule_settle {id freshID : String} {sent : Bool}
    {c : Clock} (hstep : manager.step (.schedule id freshID sent c) = some manager') :
    manager.db.Settle (some id) manager'.db := by
  obtain ⟨-, hstep⟩ := ite_none_right_eq_some.mp hstep
  obtain ⟨req, hin, rfl⟩ := map_eq_some_iff.mp hstep
  obtain ⟨hfind, -, -⟩ := inState_eq_some hin
  rw [← (find?_eq_some_iff.mp hfind).2]
  exact manager.createJobExecution_settle req freshID sent c

section Definitions

variable {repo : JobDefinitionRepository} {indexed : Bool} {qc : QueryContext}
  {job : JobDefinitionRow} {freshID : String} {row : JobDefinitionRow}

theorem mem_save (h : row ∈ (repo.save indexed qc job freshID).1) :
    (∃ old ∈ repo, row.id = old.id ∧ row.tenant = old.tenant ∧ row.definition = old.definition) ∨
    row.id = freshID ∧ row.jobType = job.jobType ∧
      (row.maxConcurrency = validatedLimit job.maxConcurrency ∨
        ∃ old ∈ repo, old.jobType = job.jobType ∧ row.maxConcurrency = old.maxConcurrency) := by
  have hfade : ∀ {f}, JobDefinitionRepository.Fades f → row ∈ repo.rows.map f →
      ∃ old ∈ repo, row.id = old.id ∧ row.tenant = old.tenant ∧
        row.definition = old.definition := by
    intro f hf hrow
    obtain ⟨old, hold, rfl⟩ := mem_map.mp hrow
    exact ⟨old, hold, hf.id old, hf.tenant old, hf.definition old⟩
  have hsaves := repo.save_saves indexed qc job freshID
  rw [← mem_rows] at h
  generalize repo.save indexed qc job freshID = saved at h hsaves
  cases hsaves with
  | fails hf hrows => exact .inl (hfade hf (hrows ▸ h))
  | skips => exact .inl ⟨row, h, rfl, rfl, rfl⟩
  | stores _ _ hkeeps hf hrows hid _ hlimit =>
    rcases mem_cons.mp (hrows ▸ h) with rfl | h
    · exact .inr ⟨hid, hkeeps.jobType, hlimit⟩
    · exact .inl (hfade hf h)

theorem find?_save {id : String}
    (hfresh : repo.find? freshID = none) (h : repo.find? id = some row) :
    ∃ row', (repo.save indexed qc job freshID).1.find? id = some row' ∧
      row'.tenant = row.tenant ∧ row'.jobType = row.jobType := by
  obtain ⟨hmem, hid⟩ := find?_eq_some_iff.mp h
  have hkept : ∃ row' ∈ (repo.save indexed qc job freshID).1.rows, row'.id = id := by
    have hsaves := repo.save_saves indexed qc job freshID
    generalize repo.save indexed qc job freshID = saved at hsaves ⊢
    cases hsaves with
    | @fails _ f _ hf hrows =>
      exact ⟨f row, hrows ▸ mem_map_of_mem hmem, (hf.id row).trans hid⟩
    | skips => exact ⟨row, hmem, hid⟩
    | @stores _ f new _ _ _ _ hf hrows =>
      exact ⟨f row, hrows ▸ mem_cons_of_mem new (mem_map_of_mem hmem), (hf.id row).trans hid⟩
  obtain ⟨row', hrow', hid'⟩ := hkept
  refine ⟨row', find?_eq_some_iff.mpr ⟨hrow', hid'⟩, ?_⟩
  rcases mem_save hrow' with ⟨old, hold, hoid, hten, hdef⟩ | ⟨hnew, -⟩
  · have heq : old = row := eq_of_key_eq hold hmem (hoid.symm.trans (hid'.trans hid.symm))
    rw [← heq]
    exact ⟨hten, congrArg JobDefinition.jobType hdef⟩
  · rw [hid'] at hnew
    rw [hnew, hfresh] at h
    cases h

theorem ofJob_save {req : JobRequest} (hfresh : repo.find? freshID = none)
    (hpin : ∃ row, repo.find? req.jobDefinitionID = some row) :
    ofJob (repo.save indexed qc job freshID).1 tenant jobType req =
      ofJob repo tenant jobType req := by
  obtain ⟨row, hrow⟩ := hpin
  obtain ⟨row', hrow', hten, htype⟩ := find?_save hfresh hrow
  rw [ofJob, ofJob, hrow, hrow', any_some, any_some, hten, htype]

variable {row' : JobDefinitionRow}

theorem load_eq_ok {denied : String} (h : load qc row denied = .ok row') :
    row'.id = row.id ∧ row'.maxConcurrency = validatedLimit row.maxConcurrency := by
  obtain ⟨processed, hpost, h⟩ := Checked.bind_eq_ok.mp h
  split at h <;> cases h
  obtain ⟨tasks, rfl⟩ := JobDefinitionRow.postProcessJob_eq hpost
  exact ⟨rfl, rfl⟩

theorem getByType_eq_ok {text : String}
    (h : repo.getByType qc text = .ok row') : ∃ row, repo.find? row'.id = some row := by
  unfold getByType at h
  simp only at h
  split at h
  · cases h
  split at h
  · cases h
  next row hfind =>
  have hid := (load_eq_ok h).1
  have hmem : row ∈ repo := by
    unfold findByType at hfind
    split at hfind
    · exact (first?_eq_some hfind).1
    rcases or_eq_some_iff.mp hfind with hfirst | ⟨-, hfirst⟩
    · exact (first?_eq_some hfirst).1
    · exact (first?_eq_some hfirst).1
  exact ⟨row, find?_eq_some_iff.mpr ⟨hmem, hid.symm⟩⟩

theorem get_eq_ok {id : String} (h : repo.get qc id = .ok row') : ∃ row, repo.find? id = some row ∧
      row'.maxConcurrency = JobDefinitionRepository.validatedLimit row.maxConcurrency := by
  unfold JobDefinitionRepository.get at h
  split at h
  · cases h
  simp only at h
  split at h
  · cases h
  next row hfirst =>
  obtain ⟨hmem, hp⟩ := first?_eq_some hfirst
  have hid := beq_iff_eq.mp (Bool.and_eq_true_iff.mp hp).1
  exact ⟨row, find?_eq_some_iff.mpr ⟨hmem, hid⟩, (load_eq_ok h).2⟩

end Definitions

section Steps

variable {users : String → Option SchedulingUser} {indexed : Bool} {cfg : SchedulerConfig}
  {req : JobRequest} {id freshID : String} {sent : Bool} {resources : Resource.State} {c : Clock}

theorem scheduleJob_cases (h : s.scheduleJob users cfg id freshID sent resources c = some s') :
    ∃ req, s.manager.inState id [pending, paused] = some req ∧
      ((∃ err errorCode, s' = { s with manager := s.manager.scheduleFailed req err errorCode c }) ∨
      (∃ secs decrPriority err, s' = { s with
        manager := { s.manager with
          db := commit s.manager.db (incrementScheduleAttempts
            s.manager.db req.id secs decrPriority err c.now) } }) ∨
      ∃ user row manager, s.validate users req = .ok (user, row) ∧
        s.checkAntResourcesAndConcurrencyForJob user row req resources
          cfg.antRegistrationAliveTimeout c.now = .ok () ∧
        s.manager.step (.schedule id freshID sent c) = some manager ∧
        s' = { s with manager := manager }) := by
  unfold scheduleJob at h
  split at h
  · cases h
  next req hin =>
  refine ⟨req, hin, ?_⟩
  split at h
  · cases h
    exact .inl ⟨_, _, rfl⟩
  next user row hvalid =>
  split at h
  · cases h
    unfold refuse
    split
    · exact .inl ⟨_, _, rfl⟩
    · exact .inr (.inl ⟨_, _, _, rfl⟩)
  · next hcheck =>
    obtain ⟨manager, hstep, rfl⟩ := map_eq_some_iff.mp h
    exact .inr (.inr ⟨user, row, manager, hvalid, hcheck, hstep, rfl⟩)

variable {user : Option SchedulingUser}

theorem validate_row {row : JobDefinitionRow} (h : s.validate users req = .ok (user, row)) :
    ∃ stored, s.definitions.find? req.jobDefinitionID = some stored ∧
      row.maxConcurrency = validatedLimit (validatedLimit stored.maxConcurrency) := by
  obtain ⟨reqUser, -, h⟩ := Checked.bind_eq_ok.mp h
  obtain ⟨loaded, hget, h⟩ := Checked.bind_eq_ok.mp h
  obtain ⟨definition, hvalid, h⟩ := Checked.bind_eq_ok.mp h
  obtain ⟨stored, hfind, hlimit⟩ := get_eq_ok hget
  have hdef : definition.maxConcurrency = validatedLimit loaded.maxConcurrency := by
    obtain ⟨tasks, -, rfl⟩ := JobDefinition.validate_eq hvalid
    rfl
  refine ⟨stored, hfind, ?_⟩
  rw [← hlimit, ← hdef]
  dsimp only at h
  split at h
  · obtain ⟨owner, -, h⟩ := Checked.bind_eq_ok.mp h
    cases h
    rfl
  · cases h
    rfl

variable {now : Time}

theorem count_lt_of_check {row : JobDefinitionRow} {timeout : Time}
    (h : s.checkAntResourcesAndConcurrencyForJob user row req resources timeout now = .ok ())
    (hlimit : 0 ≤ row.maxConcurrency) :
    (s.manager.stats.getExecutionCount req.getUserJobTypeKey).toInt < row.maxConcurrency := by
  unfold checkAntResourcesAndConcurrencyForJob at h
  simp only at h
  split at h
  · cases h
  next hnot =>
  -- the conversion to 32 bits makes no limit larger
  have hbmod : (Int32.ofInt row.maxConcurrency).toInt ≤ row.maxConcurrency := by
    rw [Int32.toInt_ofInt, show Int32.size = 4294967296 from rfl, Int.bmod_def]
    split <;> omega
  rw [Int32.le_iff_toInt_le] at hnot
  omega

/-- The step that schedules the job in a state, if the request passes the check. -/
structure Passes (users : String → Option SchedulingUser) (s : JobScheduler) (req : JobRequest)
    (action : Action) : Prop where
  scheduled : ∃ id freshID sent resources c, action = .scheduleJob id freshID sent resources c ∧
    s.manager.db.requests.find? id = some req
  checked : ∃ user row resources timeout now, s.validate users req = .ok (user, row) ∧
    s.checkAntResourcesAndConcurrencyForJob user row req resources timeout now = .ok ()

theorem saveJobRequest_cases {qc : QueryContext} (h : s.saveJobRequest qc req now = some s') :
    s' = s ∨ ∃ definition request manager,
      s.definitions.getByType qc (req.jobType ++ ":" ++ req.jobVersion) = .ok definition ∧
      request.jobDefinitionID = definition.id ∧
      s.manager.saveJobRequest request now = some manager ∧ s' = { s with manager := manager } := by
  unfold saveJobRequest at h
  split at h
  · cases h
    exact .inl rfl
  next definition hget =>
  obtain ⟨manager, hsave, rfl⟩ := map_eq_some_iff.mp h
  exact .inr ⟨definition, _, manager, hget, rfl, hsave, rfl⟩

theorem step_running {action : Action} (tenant : Tenant) (jobType : String) (hpin : s.Pinned)
    (hstep : step users indexed cfg s action = some s') :
    s'.Pinned ∧ (s'.running tenant jobType ≤ s.running tenant jobType ∨
      s'.running tenant jobType ≤ s.running tenant jobType + 1 ∧
        ∃ req, ofJob s.definitions tenant jobType req = true ∧ Passes users s req action) := by
  cases action with
  | saveDefinition =>
    obtain ⟨⟨-, hfresh⟩, hstep⟩ := ite_none_right_eq_some.mp hstep
    cases hstep
    refine ⟨fun req hreq => ?_, .inl (le_of_eq ?_)⟩
    · obtain ⟨row, hrow⟩ := hpin req hreq
      obtain ⟨row', hrow', -⟩ := find?_save hfresh hrow
      exact ⟨row', hrow'⟩
    · refine countP_congr fun req hreq => ?_
      rw [ofJob_save hfresh (hpin req hreq)]
  | saveJobRequest qc req now =>
    rcases saveJobRequest_cases hstep with
      rfl | ⟨definition, request, manager, hget, hdef, hsave, rfl⟩
    · exact ⟨hpin, .inl le_rfl⟩
    obtain ⟨-, hsave⟩ := ite_none_left_eq_some.mp hsave
    obtain ⟨requests, hins, rfl⟩ := map_eq_some_iff.mp hsave
    refine ⟨fun other hother => ?_, .inl (le_of_eq ?_)⟩
    · rcases (mem_insert? hins).mp hother with rfl | hother
      · obtain ⟨row, hrow⟩ := getByType_eq_ok hget
        exact ⟨row, by rw [← hrow, ← hdef]; rfl⟩
      · exact hpin other hother
    · have hwaits : (pendingRequest request now).isRunning = false := rfl
      unfold running affected
      rw [(insert?_eq_some hins).2, countP_cons, hwaits]
      simp
  | scheduleJob id freshID sent resources c =>
    obtain ⟨req, hin, hcase⟩ := scheduleJob_cases hstep
    obtain ⟨hfind, hmem, -⟩ := inState_eq_some hin
    rcases hcase with ⟨err, errorCode, rfl⟩ | ⟨secs, decrPriority, err, rfl⟩ |
      ⟨user, row, manager, hvalid, hcheck, hman, rfl⟩
    · have hset := scheduleFailed_settle (s := s.manager) req err errorCode c
      exact ⟨pinned_of_settle hpin hset, .inl (running_le hset (by simp))⟩
    · have hset : s.manager.db.Settle none (commit s.manager.db _) :=
        .commit fun _ => @incrementScheduleAttempts_settle _ _ req.id c.now secs decrPriority err
      exact ⟨pinned_of_settle hpin hset, .inl (running_le hset (by simp))⟩
    have hset := schedule_settle hman
    refine ⟨pinned_of_settle hpin hset, ?_⟩
    cases hof : ofJob s.definitions tenant jobType req with
    | false =>
      refine .inl (running_le hset fun other hother hid => ?_)
      have hreqid : req.id = id := (find?_eq_some_iff.mp hfind).2
      have heq : other = req :=
        eq_of_key_eq hother hmem ((some.inj hid).symm.trans hreqid.symm)
      rwa [heq]
    | true =>
      exact .inr ⟨running_le_add_one hset, req, hof,
        ⟨id, freshID, sent, resources, c, rfl, hfind⟩, user, row, resources, _, c.now, hvalid,
        hcheck⟩
  | handle =>
    obtain ⟨hhand, hstep⟩ := ite_none_right_eq_some.mp hstep
    obtain ⟨manager, hman, rfl⟩ := map_eq_some_iff.mp hstep
    have hset := handle_settle hhand hman
    exact ⟨pinned_of_settle hpin hset, .inl (running_le hset (by simp))⟩

end Steps

theorem sound_incrementScheduleAttempts (h : manager.Sound) (id : String)
    (secs : Time) (decrPriority : ℤ) (err : String) (now : Time) :
    JobManager.Sound { manager with
      db := commit manager.db (incrementScheduleAttempts manager.db
        id secs decrPriority err now) } := by
  cases hres : incrementScheduleAttempts manager.db id secs decrPriority err now with
  | error => exact h
  | ok =>
    unfold incrementScheduleAttempts at hres
    split at hres
    · next requests hupd =>
      obtain ⟨-, rfl⟩ := updateOne?_eq_some_iff.mp hupd
      cases hres
      refine h.map_requests rfl ?_ ?_ ?_ ?_ rfl (fun _ hjob => .inl hjob) rfl
      · intro r
        split <;> rfl
      · intro r
        split <;> rfl
      · intro r
        split <;> rfl
      · intro r hr
        split
        · rcases hr with hnone | ⟨e, he, hpairs⟩
          · exact .inl hnone
          · exact .inr ⟨e, he, { hpairs with }⟩
        · exact hr
    · cases hres

theorem isUnderway_of_isRunning (h : manager.Sound) {req : JobRequest}
    (hreq : req ∈ manager.db.requests) (hrun : req.isRunning = true) :
    manager.db.isUnderway req = true := by
  have hstate : req.jobState = ready ∨ req.jobState = executing := by
    simpa [JobRequest.isRunning] using hrun
  obtain ⟨e, he, hpairs⟩ := (h.paired req hreq).exists_pairs
    (by rcases hstate with hstate | hstate <;> simp [hstate])
    (by rcases hstate with hstate | hstate <;> simp [hstate])
  rw [hpairs.isUnderway he]
  rcases hstate with hstate | hstate <;> rw [hstate] <;> rfl

theorem running_le_count {key : String} (h : s.manager.Sound)
    (hkey : ∀ other ∈ s.manager.db.requests, other.isRunning = true →
      ofJob s.definitions tenant jobType other = true → other.getUserJobTypeKey = key) :
    (s.running tenant jobType : ℤ) ≤ (s.manager.stats.getExecutionCount key).toInt := by
  rw [h.counts key, Int.ofNat_le]
  refine countP_mono_left fun other hother hsel => ?_
  obtain ⟨hrun, hof⟩ := Bool.and_eq_true_iff.mp hsel
  rw [hkey other hother hrun hof, isUnderway_of_isRunning h hother hrun]
  simp

section Runs

variable (users : String → Option SchedulingUser) (indexed : Bool) (cfg : SchedulerConfig)
  (tenant : Tenant) (jobType : String) (m : ℕ)

def Within (s : JobScheduler) : Prop := s.running tenant jobType ≤ m

/-- The limit of the job type is never declared otherwise, the counters stay exact, and a request
of the job is scheduled only under the key that the running ones carry. -/
def OneCounter (s : JobScheduler) : Action → Prop
  | .saveDefinition _ job _ => job.jobType = jobType → job.maxConcurrency = m
  | .saveJobRequest _ _ _ => True
  | .scheduleJob id freshID sent _ c =>
    JobManager.Balanced s.manager (.schedule id freshID sent c) ∧
      ∀ req ∈ s.manager.db.requests.find? id, ofJob s.definitions tenant jobType req = true →
          ∀ other ∈ s.manager.db.requests, other.isRunning = true →
            ofJob s.definitions tenant jobType other = true →
              other.getUserJobTypeKey = req.getUserJobTypeKey
  | .handle action => JobManager.Balanced s.manager action

/-- What holds as long as that is so. -/
structure Counted (s : JobScheduler) : Prop where
  sound : s.manager.Sound
  pinned : s.Pinned
  limits : ∀ row ∈ s.definitions, row.jobType = jobType → row.maxConcurrency = m

variable {users indexed cfg tenant jobType m} {action : Action}

theorem Counted.sound_step (h : Counted jobType m s) (hok : OneCounter tenant jobType m s action)
    (hstep : step users indexed cfg s action = some s') : s'.manager.Sound := by
  have hbal : ∀ {action manager}, JobManager.Balanced s.manager action →
      s.manager.step action = some manager → manager.Sound := by
    intro action manager hbal hman
    have hiff := JobManager.step_iff h.sound hman
    exact hiff.sound (hiff.counts.mpr hbal)
  cases action with
  | saveDefinition =>
    obtain ⟨-, hstep⟩ := ite_none_right_eq_some.mp hstep
    cases hstep
    exact h.sound
  | saveJobRequest =>
    rcases saveJobRequest_cases hstep with rfl | ⟨-, request, manager, -, -, hsave, rfl⟩
    · exact h.sound
    · exact h.sound.saveJobRequest hsave
  | scheduleJob id freshID sent resources c =>
    obtain ⟨req, hin, hcase⟩ := scheduleJob_cases hstep
    obtain ⟨hfind, -, -⟩ := JobManager.inState_eq_some hin
    rcases hcase with ⟨err, errorCode, rfl⟩ | ⟨secs, decrPriority, err, rfl⟩ |
      ⟨-, -, manager, -, -, hman, rfl⟩
    · -- the request has no run that could be left uncounted
      have hfail : JobManager.Balanced s.manager (.scheduleFailed id err errorCode c) :=
        fun r hr => (hok.1.2 r hr).1
      refine hbal hfail ?_
      simp only [JobManager.step, hin, map_some]
    · exact sound_incrementScheduleAttempts h.sound req.id secs decrPriority err c.now
    · exact hbal hok.1 hman
  | handle =>
    obtain ⟨-, hstep⟩ := ite_none_right_eq_some.mp hstep
    obtain ⟨manager, hman, rfl⟩ := map_eq_some_iff.mp hstep
    exact hbal hok hman

section

variable (h : Counted jobType m s) (hm : 2 ≤ m) (hok : OneCounter tenant jobType m s action)
include h hm hok

theorem Counted.limits_step (hstep : step users indexed cfg s action = some s') :
    ∀ row ∈ s'.definitions, row.jobType = jobType → row.maxConcurrency = m := by
  cases action with
  | saveDefinition =>
    obtain ⟨-, hstep⟩ := ite_none_right_eq_some.mp hstep
    cases hstep
    intro row hrow htype
    rcases mem_save hrow with ⟨old, hold, -, -, hdef⟩ | ⟨-, hjob, hlimit⟩
    · have hold := h.limits old hold
      rw [JobDefinitionRow.jobType, hdef] at htype
      rw [JobDefinitionRow.maxConcurrency, hdef]
      exact hold htype
    rcases hlimit with hlimit | ⟨old, hold, hsame, hlimit⟩
    · rw [hlimit, hok (hjob.symm.trans htype)]
      exact if_neg (by omega)
    · rw [hlimit]
      exact h.limits old hold (hsame.trans (hjob.symm.trans htype))
  | saveJobRequest =>
    rcases saveJobRequest_cases hstep with rfl | ⟨-, -, manager, -, -, -, rfl⟩ <;> exact h.limits
  | scheduleJob =>
    obtain ⟨-, -, ⟨-, -, rfl⟩ | ⟨-, -, -, rfl⟩ | ⟨-, -, -, -, -, -, rfl⟩⟩ := scheduleJob_cases hstep
    all_goals exact h.limits
  | handle =>
    obtain ⟨-, hstep⟩ := ite_none_right_eq_some.mp hstep
    obtain ⟨manager, -, rfl⟩ := map_eq_some_iff.mp hstep
    exact h.limits

theorem Counted.within_step (hstep : step users indexed cfg s action = some s')
    (hle : Within tenant jobType m s) : Within tenant jobType m s' := by
  unfold Within at hle ⊢
  obtain ⟨-, hless | ⟨hmost, req, hof, ⟨id, freshID, sent, resources, c, rfl, hfind⟩,
    user, row, resources', timeout, now, hvalid, hcheck⟩⟩ :=
    step_running tenant jobType h.pinned hstep
  · omega
  obtain ⟨stored, hstor, hlimit⟩ := validate_row hvalid
  have hsm : stored.maxConcurrency = m := by
    rw [ofJob, hstor, any_some] at hof
    have htype := beq_iff_eq.mp (Bool.and_eq_true_iff.mp hof).2
    exact h.limits stored (find?_eq_some_iff.mp hstor).1 htype
  have hval : validatedLimit m = m := if_neg (by omega)
  rw [hsm, hval, hval] at hlimit
  have hcount := count_lt_of_check hcheck (by omega)
  have hrun := running_le_count h.sound (hok.2 req hfind hof)
  omega

end

theorem counted_new : Counted jobType m new where
  sound := sound_new
  pinned _ hreq := by cases hreq
  limits _ hrow := by cases hrow

/-- As many requests of a job run as were declared, at most, throughout a run if the number is at
least two and every save of the job type declares it, the counters stay exact, and the running
requests of the job always carry the key of the one that is scheduled. -/
theorem concurrency_within (users : String → Option SchedulingUser) (indexed : Bool)
    (cfg : SchedulerConfig) (tenant : Tenant) (jobType : String) (m : ℕ) (actions : List Action)
    (hm : 2 ≤ m)
    (hone : (system users indexed cfg).Meets (OneCounter tenant jobType m) new actions) :
    (system users indexed cfg).Along (Within tenant jobType m) new actions := by
  refine TransitionSystem.along_of_meets
    (I := fun s => Counted jobType m s ∧ Within tenant jobType m s) (fun _ h => h.2) ?_
    ⟨counted_new, Nat.zero_le m⟩ hone
  rintro s action s' ⟨h, hle⟩ hok hstep
  have hpin := (step_running tenant jobType h.pinned hstep).1
  exact ⟨⟨h.sound_step hok hstep, hpin, h.limits_step hm hok hstep⟩, h.within_step hm hok hstep hle⟩

end Runs

instance (tenant : Tenant) (jobType : String) (m : ℕ) :
    DecidablePred (Within tenant jobType m) := fun s =>
  inferInstanceAs (Decidable (s.running tenant jobType ≤ m))

instance (tenant : Tenant) (jobType : String) (m : ℕ) (s : JobScheduler) (action : Action) :
    Decidable (OneCounter tenant jobType m s action) := by
  cases action <;> dsimp only [OneCounter] <;> infer_instance

def anyUser : String → Option SchedulingUser := fun _ => some ⟨false, 10, some 10⟩

def oneAnt : Resource.State :=
  Resource.newState.addRegistration (Resource.shellAnt "a")

def declares (m : ℤ) (semVersion : String) : JobDefinitionRow :=
  { (uploaded "first").setMaxConcurrency m with semVersion := semVersion }

def submit (id jobVersion : String) : Action :=
  .saveJobRequest acmeMember { buildRequest id with jobVersion := jobVersion } 0

def scheduled (id freshID : String) : Action := .scheduleJob id freshID true oneAnt {}

def threeRequests : List Action :=
  [.saveDefinition acmeMember (declares 2 "") "d1", submit "r1" "", submit "r2" "", submit "r3" "",
    scheduled "r1" "e1", scheduled "r2" "e2", scheduled "r3" "e3", .handle (.launch "r1" 1),
    .handle (.supervise 0 .execute {}), .handle (.supervise 0 .complete {}), scheduled "r3" "e4"]

def config : SchedulerConfig := ⟨100, 60, 60⟩

theorem concurrency_within_threeRequests :
    (((system anyUser true config).runWith (fun _ _ => True) new threeRequests).any fun s =>
      decide (s.running (.organization "acme") "build" = 2)) = true ∧
    (system anyUser true config).Along (Within (.organization "acme") "build" 2) new
      threeRequests :=
  ⟨by decide, concurrency_within anyUser true config (.organization "acme") "build" 2
    threeRequests (by decide) (by decide)⟩

/-- A definition that declares one run at a time has two, and one that declares two has three with
requests for a version and without. -/
theorem concurrency_exceeded :
    ¬ (system anyUser true config).Along (Within (.organization "acme") "build" 1) new
      [.saveDefinition acmeMember (declares 1 "") "d1", submit "r1" "", submit "r2" "",
        scheduled "r1" "e1", scheduled "r2" "e2"] ∧
    ¬ (system anyUser true config).Along (Within (.organization "acme") "build" 2) new
      [.saveDefinition acmeMember (declares 2 "1.0") "d1", submit "r1" "", submit "r2" "",
        submit "r3" "1.0", scheduled "r1" "e1", scheduled "r2" "e2", scheduled "r3" "e3"] := by
  decide

end Formicary.JobScheduler

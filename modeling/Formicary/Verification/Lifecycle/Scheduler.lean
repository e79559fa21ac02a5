import Formicary.Verification.Lifecycle.Invariant

/-! # The scheduler keeps the invariant

The scheduler works through a batch of copies of request rows. -/

namespace Formicary.Lifecycle

open RequestState JobRequestRepository JobExecutionRepository Table

variable {s s' : State} {a : Attempt} {req : JobRequest}

theorem Inv.copyInv (h : Inv s) (hcur : s.current = none)
    (hreq : req ∈ s.db.requests) (hstate : req.jobState = pending ∨ req.jobState = paused) :
    CopyInv s.db req := by
  have hsame : ∀ r ∈ s.db.requests, r.id = req.id → r = req :=
    fun r hr hid => eq_of_key_eq hr hreq hid
  refine ⟨⟨⟨req, hreq, rfl⟩, ?_⟩, ?_⟩
  · intro r hr hid
    rw [hsame r hr hid]
    rcases hstate with hs | hs
    · exact .inl hs
    · exact .inr (.inl hs)
  · intro e he hown hl
    rcases h.referenced e he hl req hreq hown.symm with h1 | h1 | ⟨⟨b, _, hb, _⟩, _⟩
    · exact h1
    · rcases hstate with hs | hs <;> rw [hs] at h1 <;> cases h1
    · rw [hcur] at hb
      cases hb

variable {now : Time}

theorem inv_nextSchedulable {ids : List String} (h : Inv s) (hcur : s.current = none) :
    Inv { s with batch := s.db.requests.rows.filter fun req =>
      ids.contains req.id && schedulable now req } := by
  refine { h with batch := ?_, distinct := ?_, apart := ?_ }
  · intro req hreq
    obtain ⟨hmem, hsel⟩ := List.mem_filter.mp hreq
    refine h.copyInv hcur hmem ?_
    have hdue := ((Bool.and_eq_true _ _).mp hsel).2
    simpa using ((Bool.and_eq_true _ _).mp hdue).1
  · exact s.db.requests.nodup.sublist (List.filter_sublist.map _)
  · intro b hb
    rw [hcur] at hb
    cases hb

theorem inv_pick {rest : List JobRequest} (h : Inv s) (hbatch : s.batch = req :: rest)
    (hcur : s.current = none) :
    Inv { s with batch := rest, current := some ⟨req, .selected⟩ } := by
  have hdist : ((req :: rest).map JobRequest.id).Nodup := hbatch ▸ h.distinct
  obtain ⟨hfresh, hrest⟩ := List.nodup_cons.mp hdist
  refine { h with referenced := ?_, batch := ?_, distinct := hrest, apart := ?_, current := ?_ }
  · intro e he hl r hr hid
    rcases h.referenced e he hl r hr hid with h1 | h1 | ⟨⟨b, _, hb, _⟩, _⟩
    · exact .inl h1
    · exact .inr (.inl h1)
    · rw [hcur] at hb
      cases hb
  · intro c hc
    exact h.batch c (hbatch ▸ List.mem_cons_of_mem _ hc)
  · rintro b hb c hc hid
    cases hb
    exact hfresh (List.mem_map.mpr ⟨c, hc, hid⟩)
  · rintro b hb
    cases hb
    exact h.batch req (hbatch ▸ List.mem_cons_self)

variable {db db' : Database} {old : Option JobExecution}

theorem lookupExecution_spec (h : lookupExecution db req now = (old, db')) :
    db'.requests = db.requests ∧ db'.executions = db.executions ∧
      (∀ e, old = some e → e ∈ db.executions ∧ req.jobExecutionID = some e.id) ∧
      (old = none → ∀ e ∈ db.executions, e.id ≠ "" → req.jobExecutionID = some e.id →
        e.active = false) := by
  unfold lookupExecution at h
  split at h
  · next hid =>
    cases h
    exact ⟨rfl, rfl, nofun, fun _ e _ _ he => by rw [hid] at he; cases he⟩
  next id hid =>
  split at h
  · next loaded db₁ hget =>
    cases h
    obtain ⟨hreq, hexec, hfind⟩ := get_tables hget
    obtain ⟨hmem, hkey⟩ := find?_eq_some_iff.mp hfind
    refine ⟨hreq, hexec, ?_, nofun⟩
    rintro e he
    cases he
    exact ⟨hmem, by rw [hid]; exact congrArg some hkey.symm⟩
  next err hget =>
  cases h
  refine ⟨rfl, rfl, nofun, ?_⟩
  intro _ e he hne heid
  rw [hid] at heid
  cases heid
  by_contra hact
  obtain ⟨p, hp⟩ := get_of_active he hne (by simpa using hact) now
  rw [hp] at hget
  cases hget

theorem lookupExecution_quiet (h : lookupExecution db req now = (old, db')) : Quiet db db' := by
  obtain ⟨hreq, hexec, _⟩ := lookupExecution_spec h
  refine quiet_of_requests hexec ?_
  rw [hreq]
  exact Table.Evolves.refl QuietRequest.refl _

/-- What one action of the scheduler makes of the tables, and the phase in which it leaves the
attempt if the attempt goes on. -/
inductive Schedules (db : Database) (a : Attempt) : Action → Database → Option Phase → Prop
  | drop (hphase : a.phase = .selected) : Schedules db a .drop db none
  | gaveUp (hphase : a.phase = .selected) : Schedules db a .scheduleFailed db (some (.failing none))
  | postpone {secs decrPriority : ℤ} {i : Input} (hphase : a.phase = .selected) :
    Schedules db a (.postpone secs decrPriority i)
      (commit db (incrementScheduleAttempts db a.request.id secs decrPriority
        i.errorMessage i.now)) none
  | lookup {now : Time} {old : Option JobExecution} {db' : Database}
    (hphase : a.phase = .selected) (hlook : lookupExecution db a.request now = (old, db'))
    (hwaits : a.request.jobState = pending ∨ a.request.jobState = paused) :
    Schedules db a (.lookup now) db' (some (.found old))
  | moved {now : Time} (hphase : a.phase = .selected)
    (hmoved : ¬ (a.request.jobState = pending ∨ a.request.jobState = paused)) :
    Schedules db a (.lookup now) db (some (.failing none))
  | create {i : Input} {old : Option JobExecution} {db' : Database} (hphase : a.phase = .found old)
    (hlive : (old.filter fun e => !e.jobState.isTerminal) = none) (hne : i.freshID ≠ "")
    (hsave : save db (newJobExecution a.request i.freshID i.now) = .ok db') :
    Schedules db a (.saveExecution i) db'
      (some (.saved (newJobExecution a.request i.freshID i.now)))
  | reset {i : Input} {old : Option JobExecution} {e : JobExecution} {db' : Database}
    (hphase : a.phase = .found old)
    (hlive : (old.filter fun e => !e.jobState.isTerminal) = some e)
    (hreset : resetStateToReady db e.id i.now = .ok db') :
    Schedules db a (.saveExecution i) db' (some (.saved e))
  | notReset {i : Input} {old : Option JobExecution} {e : JobExecution} {err : Error}
    (hphase : a.phase = .found old)
    (hlive : (old.filter fun e => !e.jobState.isTerminal) = some e)
    (hreset : resetStateToReady db e.id i.now = .error err) :
    Schedules db a (.saveExecution i) db (some (.failing none))
  | markReady {now : Time} {e : JobExecution} {db' : Database} (hphase : a.phase = .saved e)
    (hmark : setReadyToExecute db a.request.id e.id a.request.lastJobExecutionID now = .ok db') :
    Schedules db a (.markReady now) db' (some (.marked e))
  | notMarked {now : Time} {e : JobExecution} {err : Error} (hphase : a.phase = .saved e)
    (hmark : setReadyToExecute db a.request.id e.id a.request.lastJobExecutionID now = .error err) :
    Schedules db a (.markReady now) db (some (.failing (some e)))
  | failExecution {i : Input} {e : JobExecution} {db' : Database}
    (hphase : a.phase = .failing (some e))
    (hfin : finalizeJobRequestAndExecutionState db e.id
      (revertState a.request) failed i.errorMessage i.errorCode i.cpuSecs i.delay i.retried
      i.pausedCount i.userKey i.now = .ok db') :
    Schedules db a (.failExecution i) db' none
  | notFailed {i : Input} {e : JobExecution} (hphase : a.phase = .failing (some e)) :
    Schedules db a (.failExecution i) db (some (.failing none))
  | failRequest {i : Input} (hphase : a.phase = .failing none) :
    Schedules db a (.failRequest i) (commit db (updateJobState db a.request.id
        (some (revertState a.request)) failed i.errorMessage i.errorCode i.delay 0
        i.pausedCount i.userKey i.now)) none
  | sent {e : JobExecution} (hphase : a.phase = .marked e) :
    Schedules db a (.sendLaunchEvent true) db none
  | notSent {e : JobExecution} (hphase : a.phase = .marked e) :
    Schedules db a (.sendLaunchEvent false) db (some (.reverting e))
  | revertRequest {i : Input} {e : JobExecution} (hphase : a.phase = .reverting e) :
    Schedules db a (.revertRequest i) (commit db (updateJobState db a.request.id (some ready)
        (revertState a.request) i.errorMessage "" i.delay 0 i.pausedCount i.userKey i.now))
      (some (.deleting e))
  | deleteExecution {now : Time} {e : JobExecution} (hphase : a.phase = .deleting e) :
    Schedules db a (.deleteExecution now) (commit db (delete db e.id now)) none

theorem schedules_of_scheduleStep {action : Action} (h : scheduleStep s a action = some s') :
    ∃ db phase, Schedules s.db a action db phase ∧
      s' = { s with db := db, current := phase.map fun phase => { a with phase := phase } } := by
  unfold scheduleStep at h
  split at h <;> try cases h
  -- the phase that the action needs
  all_goals split at h <;> try cases h
  · next hphase => exact ⟨_, _, .drop hphase, rfl⟩
  · next hphase => exact ⟨_, _, .postpone hphase, rfl⟩
  · next hphase => exact ⟨_, _, .gaveUp hphase, rfl⟩
  · next hphase =>
    split at h <;> cases h
    · next hwaits => exact ⟨_, _, .lookup hphase rfl hwaits, rfl⟩
    · next hmoved => exact ⟨_, _, .moved hphase hmoved, rfl⟩
  · next old hphase =>
    dsimp only at h
    split at h
    · next hlive =>
      split at h
      · cases h
      next hne =>
      split at h <;> cases h
      next hsave => exact ⟨_, _, .create hphase hlive hne hsave, rfl⟩
    next hlive =>
    split at h <;> cases h
    · next hreset => exact ⟨_, _, .reset hphase hlive hreset, rfl⟩
    · next hreset => exact ⟨_, _, .notReset hphase hlive hreset, rfl⟩
  · next hphase =>
    split at h <;> cases h
    · next hmark => exact ⟨_, _, .markReady hphase hmark, rfl⟩
    · next hmark => exact ⟨_, _, .notMarked hphase hmark, rfl⟩
  · next hphase =>
    split at h <;> cases h
    · next hfin => exact ⟨_, _, .failExecution hphase hfin, rfl⟩
    · exact ⟨_, _, .notFailed hphase, rfl⟩
  · next hphase => exact ⟨_, _, .failRequest hphase, rfl⟩
  · next sent _ _ hphase =>
    cases sent <;> cases h
    · exact ⟨_, _, .notSent hphase, rfl⟩
    · exact ⟨_, _, .sent hphase, rfl⟩
  · next hphase => exact ⟨_, _, .revertRequest hphase, rfl⟩
  · next hphase => exact ⟨_, _, .deleteExecution hphase, rfl⟩

/-- What one step can be. -/
inductive Steps (s : State) : Action → State → Prop
  | submit {req : JobRequest} {requests : Table JobRequest.id} (hid : req.id ≠ "")
    (hnone : req.jobExecutionID = none) (hins : s.db.requests.insert? req = some requests) :
    Steps s (.submit req) { s with db := { s.db with requests := requests } }
  | nextSchedulable {ids : List String} {now : Time} (hcur : s.current = none) :
    Steps s (.nextSchedulable ids now) { s with
      batch := s.db.requests.rows.filter fun req => ids.contains req.id && schedulable now req }
  | pick {req : JobRequest} {rest : List JobRequest} (hbatch : s.batch = req :: rest)
    (hcur : s.current = none) :
    Steps s .pick { s with batch := rest, current := some ⟨req, .selected⟩ }
  | restart {qc : QueryContext} {id newJobDefinitionID : String} {hard : Bool} {now : Time}
    {db : Database} (hrestart : restart s.db qc id hard newJobDefinitionID now = .ok db) :
    Steps s (.restart qc id hard newJobDefinitionID now) { s with db := db }
  | quiet {action : Action} {db : Database} {copies : List JobRequest} (hquiet : Quiet s.db db) :
    Steps s action { s with db := db, copies := copies }
  | schedules {action : Action} {a : Attempt} {db : Database} {phase : Option Phase}
    (ha : s.current = some a) (hsched : Schedules s.db a action db phase) :
    Steps s action
      { s with db := db, current := phase.map fun phase => { a with phase := phase } }

theorem steps_of_step {action : Action} (hs : step s action = some s') : Steps s action s' := by
  cases action with
  | submit =>
    obtain ⟨hnew, hs⟩ := Option.ite_none_right_eq_some.mp hs
    obtain ⟨requests, hins, rfl⟩ := Option.map_eq_some_iff.mp hs
    exact .submit hnew.1 hnew.2.2 hins
  | nextSchedulable =>
    obtain ⟨hidle, hs⟩ := Option.ite_none_right_eq_some.mp hs
    cases hs
    exact .nextSchedulable hidle.2
  | pick =>
    simp only [step] at hs
    split at hs <;> cases hs
    next hbatch hcur => exact .pick hbatch hcur
  | setExecuting | requireApproval =>
    cases hs
    exact .quiet (quiet_commit fun db hdb =>
      quiet_of_movesBoth (updateState_movesBoth hdb) (.inl (by decide)))
  | finalize execID ending =>
    cases hs
    exact .quiet (quiet_commit fun db hdb =>
      quiet_of_movesBoth (finalize_movesBoth hdb).2 (.inl (by cases ending <;> decide)))
  | updateRequest id u =>
    cases hs
    exact .quiet (quiet_commit fun db hdb => quiet_of_updatesState (updateJobState_updates hdb)
      (.inl (by cases u <;> simp only [RequestUpdate.oldState] <;> decide)))
  | read =>
    simp only [step] at hs
    split at hs <;> cases hs
    exact .quiet (Quiet.refl _)
  | cancel =>
    obtain ⟨-, hs⟩ := Option.ite_none_right_eq_some.mp hs
    cases hs
    exact .quiet (quiet_commit fun db hdb => cancelTransaction_quiet hdb)
  | approve =>
    obtain ⟨-, hs⟩ := Option.ite_none_right_eq_some.mp hs
    cases hs
    refine .quiet ⟨Evolves.refl QuietExecution.refl _, evolves_update QuietRequest.refl ?_⟩
    exact fun r _ hr => quietRequest_of_parked rfl (by rw [waitingRequest_state hr]; rfl) (.inl rfl)
  | reject =>
    obtain ⟨-, hs⟩ := Option.ite_none_right_eq_some.mp hs
    cases hs
    exact .quiet (finalizeRejection_quiet ..)
  | restart qc id hard newJobDefinitionID now =>
    cases hs
    cases hres : restart s.db qc id hard newJobDefinitionID now with
    | ok => exact .restart hres
    | error => exact .quiet (Quiet.refl _)
  | requeueOrphans =>
    cases hs
    exact .quiet (requeueOrphanRequests_quiet ..)
  | _ =>
    obtain ⟨a, ha, hs⟩ := Option.bind_eq_some_iff.mp hs
    obtain ⟨db, phase, hsched, rfl⟩ := schedules_of_scheduleStep hs
    exact .schedules ha hsched

theorem schedules_of_step {action : Action} {phase' : Phase}
    (h : (s.current.bind fun a => scheduleStep s a action) = some s')
    (hcur : s'.current = some ⟨req, phase'⟩) : ∃ phase, s.current = some ⟨req, phase⟩ ∧
      Schedules s.db ⟨req, phase⟩ action s'.db (some phase') := by
  obtain ⟨a, ha, h⟩ := Option.bind_eq_some_iff.mp h
  obtain ⟨db, phase, hsched, rfl⟩ := schedules_of_scheduleStep h
  obtain ⟨phase, rfl, hnext⟩ := Option.map_eq_some_iff.mp hcur
  cases hnext
  exact ⟨a.phase, ha, hsched⟩

theorem inv_lookup (h : Inv s) (ha : s.current = some a)
    (hphase : a.phase = .selected) (hlook : lookupExecution s.db a.request now = (old, db)) :
    Inv { s with db := db, current := some { a with phase := .found old } } := by
  have hcopy : CopyInv s.db a.request := by simpa [PhaseInv, hphase] using h.current a ha
  obtain ⟨_, _, hsome, hnone⟩ := lookupExecution_spec hlook
  have hq := lookupExecution_quiet hlook
  refine h.advance ha (by simp [hphase]) hq rfl ?_
  rintro b hb
  cases hb
  refine ⟨rfl, hcopy.waits.quiet hq, ?_⟩
  split
  · -- nothing live was found, so nothing is live
    next hlive =>
    refine NoLive.quiet ?_ hq
    intro e he hown hl
    have hid := hcopy.referenced e he hown hl
    cases old with
    | none =>
      have := hnone rfl e he (h.executionIDs e he) hid
      rw [hl.1] at this
      cases this
    | some o =>
      obtain ⟨ho, hoid⟩ := hsome o rfl
      have hsame : o = e := eq_of_key_eq ho he (Option.some.inj (hoid.symm.trans hid))
      subst hsame
      simp [Option.filter, hl.2] at hlive
  · next o hlive =>
    refine LiveOnly.quiet ?_ hq
    intro e he hown hl
    have hid := hcopy.referenced e he hown hl
    obtain ⟨ho, _⟩ := Option.filter_eq_some_iff.mp hlive
    exact (Option.some.inj ((hsome o ho).2.symm.trans hid)).symm

theorem inv_save {execution : JobExecution} (h : Inv s)
    (ha : s.current = some a) (hphase : ∀ e, a.phase ≠ .saved e)
    (hwaits : Waits s.db.requests a.request.id) (hnone : NoLive s.db a.request.id)
    (hne : execution.id ≠ "") (hown : execution.jobRequestID = a.request.id)
    (hs : save s.db execution = .ok db) :
    Inv { s with db := db, current := some { a with phase := .saved execution } } := by
  obtain ⟨executions, hins, rfl⟩ := save_eq_ok hs
  have hmem := fun e => mem_insert? (b := e) hins
  have hother : ∀ req ∈ s.batch, execution.jobRequestID ≠ req.id :=
    fun req hreq hid => h.apart a ha req hreq (by rw [← hid, hown])
  constructor
  · -- a second live execution of the request would have been live before
    intro e he f hf hreq hle hlf
    rcases (hmem e).mp he with rfl | he' <;> rcases (hmem f).mp hf with rfl | hf'
    · rfl
    · exact absurd hlf (hnone f hf' (hreq.symm.trans hown))
    · exact absurd hle (hnone e he' (hreq.trans hown))
    · exact h.unique e he' f hf' hreq hle hlf
  · exact h.requestIDs
  · intro e he
    rcases (hmem e).mp he with rfl | he
    · exact hne
    · exact h.executionIDs e he
  · intro e he hl r hr hid
    rcases (hmem e).mp he with rfl | he
    · have hrid : r.id = a.request.id := hid.trans hown
      have hheld : Held { s with
          db := { s.db with executions := executions }
          current := some { a with phase := .saved e } } r.id e.id :=
        ⟨_, e, rfl, rfl, hrid.symm, rfl⟩
      rcases hwaits.parked r hr hrid with hp | hp | hp
      · exact .inr (.inr ⟨hheld, .inl hp⟩)
      · exact .inr (.inr ⟨hheld, .inr hp⟩)
      · exact .inr (.inl hp)
    · rcases h.referenced e he hl r hr hid with h1 | h1 | ⟨⟨b, f, hb, hf, _⟩, _⟩
      · exact .inl h1
      · exact .inr (.inl h1)
      · rw [ha] at hb
        cases hb
        exact absurd hf (hphase f)
  · intro e he
    rcases (hmem e).mp he with rfl | he
    · obtain ⟨r, hr, hid⟩ := hwaits.row
      exact ⟨r, hr, hid.trans hown.symm⟩
    · exact h.owned e he
  · intro req hreq
    refine ⟨(h.batch req hreq).waits, ?_⟩
    intro e he hid hl
    rcases (hmem e).mp he with rfl | he
    · exact absurd hid (hother req hreq)
    · exact (h.batch req hreq).referenced e he hid hl
  · exact h.distinct
  · rintro b hb req hreq
    cases hb
    exact h.apart a ha req hreq
  · rintro b hb
    cases hb
    refine ⟨hwaits, ?_, execution, (hmem execution).mpr (.inl rfl), rfl⟩
    intro e he hid hl
    rcases (hmem e).mp he with rfl | he
    · rfl
    · exact absurd hl (hnone e he hid)

variable {id : String} {execID : String} {last : Option String}

theorem setReadyToExecute_error {err : Error}
    (h : setReadyToExecute db id execID last now = .error err) :
    id = "" ∨ execID = "" ∨ db.executions.find? execID = none ∨
      ∀ r ∈ db.requests, r.id = id → r.jobState ≠ pending ∧ r.jobState ≠ paused := by
  unfold setReadyToExecute at h
  split at h
  · exact .inl ‹_›
  split at h
  · exact .inr (.inl ‹_›)
  split at h
  · exact .inr (.inr (.inl ‹_›))
  split at h
  · cases h
  next hnone =>
  refine .inr (.inr (.inr fun r hr hid => ?_))
  have hsel := not_selected_of_updateOne? (k := id) (fun _ h => by simp_all) hnone r hr
  simpa [hid] using hsel

theorem setReadyToExecute_ok (h : setReadyToExecute db id execID last now = .ok db') :
    db'.executions = db.executions ∧ db.requests.Evolves (fun r r' => r.id ≠ id ∧ r' = r ∨
        r.id = id ∧ r'.jobExecutionID = some execID) db'.requests := by
  obtain ⟨-, -, hexec, -, hreq⟩ := setReadyToExecute_eq_ok h
  refine ⟨hexec, hreq.mono ?_⟩
  rintro r r' (hsame | ⟨hid, rfl⟩)
  · exact .inl hsame
  · exact .inr ⟨hid, rfl⟩

theorem CopyInv.of_other
    {R : JobRequest → JobRequest → Prop} (h : CopyInv db req) (hne : req.id ≠ id)
    (hexec : db'.executions = db.executions)
    (hreq : db.requests.Evolves (fun r r' => r.id ≠ id ∧ r' = r ∨ r.id = id ∧ R r r')
      db'.requests) : CopyInv db' req := by
  refine ⟨⟨?_, ?_⟩, by rw [hexec]; exact h.referenced⟩
  · exact hreq.exists_key h.waits.row
  intro r' hr' hid
  obtain ⟨r, hr, hk, hrel⟩ := hreq.origin r' hr'
  rcases hrel with ⟨_, rfl⟩ | ⟨heq, _⟩
  · exact h.waits.parked r' hr hid
  · exact absurd (hid.symm.trans (hk.symm.trans heq)) hne

theorem Held.eq_current {requestID : String} (h : Held s requestID id)
    (ha : s.current = some a) : requestID = a.request.id := by
  obtain ⟨b, -, hb, -, hreq, -⟩ := h
  rw [ha] at hb
  cases hb
  exact hreq.symm

theorem inv_markReady {e : JobExecution} (h : Inv s) (ha : s.current = some a)
    (hphase : a.phase = .saved e)
    (hmark : setReadyToExecute s.db a.request.id e.id a.request.lastJobExecutionID now = .ok db) :
    Inv { s with db := db, current := some { a with phase := .marked e } } := by
  obtain ⟨_, honly, _⟩ : PhaseInv s.db a.request (.saved e) := hphase ▸ h.current a ha
  obtain ⟨hexec, hreq⟩ := setReadyToExecute_ok hmark
  refine ⟨?_, ?_, ?_, ?_, ?_, ?_, h.distinct, ?_, ?_⟩
  · simp only [AtMostOneLive, hexec]
    exact h.unique
  · exact hreq.forall_key (P := (· ≠ "")) h.requestIDs
  · simp only [hexec]
    exact h.executionIDs
  · simp only [hexec]
    intro f hf hl r' hr' hown
    obtain ⟨r, hr, hk, hrel⟩ := hreq.origin r' hr'
    rcases hrel with ⟨hne, rfl⟩ | ⟨heq, hnew⟩
    · rcases h.referenced f hf hl r' hr hown with h1 | h1 | ⟨h1, _⟩
      · exact .inl h1
      · exact .inr (.inl h1)
      · exact absurd (h1.eq_current ha) hne
    · have hlive := honly f hf (by rw [← hown, ← hk]; exact heq) hl
      exact .inl (by rw [hnew, hlive])
  · simp only [hexec]
    exact fun f hf => hreq.exists_key (h.owned f hf)
  · intro req hmem
    exact (h.batch req hmem).of_other (h.apart a ha req hmem) hexec hreq
  · rintro b hb req hmem
    cases hb
    exact h.apart a ha req hmem
  · rintro b hb
    cases hb
    trivial

theorem inv_notMarked {e : JobExecution} {err : Error} (h : Inv s) (ha : s.current = some a)
    (hphase : a.phase = .saved e)
    (hmark : setReadyToExecute s.db a.request.id e.id
      a.request.lastJobExecutionID now = .error err) :
    Inv { s with current := some { a with phase := .failing (some e) } } := by
  obtain ⟨hwaits, _, row, hrow, hid⟩ : PhaseInv s.db a.request (.saved e) := hphase ▸ h.current a ha
  obtain ⟨r₀, hr₀, hrid₀⟩ := hwaits.row
  have hmoved := (((setReadyToExecute_error hmark).resolve_left
    (hrid₀ ▸ h.requestIDs r₀ hr₀)).resolve_left (hid ▸ h.executionIDs row hrow)).resolve_left
      fun hnone => find?_eq_none_iff.mp hnone row hrow hid
  refine { h with referenced := ?_, apart := ?_, current := ?_ }
  · -- the request has moved, so the execution that was saved is referenced or orphaned
    intro f hf hl r hr hown
    rcases h.referenced f hf hl r hr hown with h1 | h1 | ⟨h1, h2⟩
    · exact .inl h1
    · exact .inr (.inl h1)
    obtain ⟨hpend, hpause⟩ := hmoved r hr (h1.eq_current ha)
    rcases h2 with h2 | h2
    · exact absurd h2 hpend
    · exact absurd h2 hpause
  · rintro b hb req hmem
    cases hb
    exact h.apart a ha req hmem
  · rintro b hb
    cases hb
    trivial

theorem revertState_cases (req : JobRequest) : revertState req = pending ∨
    revertState req = paused ∨ revertState req = manualApprovalRequired := by
  unfold revertState
  split
  · next h => exact .inr h
  · exact .inl rfl

theorem revertState_not_terminal : (revertState req).isTerminal = false := by
  rcases revertState_cases req with h | h | h <;> rw [h] <;> rfl

theorem inv_schedules {action : Action} {phase : Option Phase} (h : Inv s)
    (ha : s.current = some a) (hsched : Schedules s.db a action db phase) :
    Inv { s with db := db, current := phase.map fun phase => { a with phase := phase } } := by
  -- an attempt that ends, or enters a phase with its obligations, after a quiet statement
  have hdone : ∀ {db : Database}, (∀ e, a.phase ≠ .saved e) → Quiet s.db db →
      Inv { s with db := db, current := none } := by
    intro db hphase hq
    exact h.advance ha hphase hq rfl (fun b hb => by cases hb)
  have hnext : ∀ {db : Database} {phase : Phase}, (∀ e, a.phase ≠ .saved e) → Quiet s.db db →
      PhaseInv db a.request phase →
      Inv { s with db := db, current := some { a with phase := phase } } := by
    intro db phase hphase hq hp
    refine h.advance ha hphase hq rfl ?_
    rintro b hb
    cases hb
    exact ⟨rfl, hp⟩
  have hcur := h.current a ha
  cases hsched with
  | drop hphase | sent hphase => exact hdone (by simp [hphase]) (Quiet.refl _)
  | gaveUp hphase | moved hphase | notReset hphase | notFailed hphase | notSent hphase =>
    exact hnext (by simp [hphase]) (Quiet.refl _) trivial
  | postpone hphase =>
    exact hdone (by simp [hphase]) (quiet_commit fun db hdb => incrementScheduleAttempts_quiet hdb)
  | lookup hphase hlook => exact inv_lookup h ha hphase hlook
  | create hphase hlive hne hsave =>
    simp only [hphase, PhaseInv, hlive] at hcur
    exact inv_save h ha (by simp [hphase]) hcur.1 hcur.2 hne rfl hsave
  | reset hphase hlive hreset =>
    simp only [hphase, PhaseInv, hlive] at hcur
    have hq := resetStateToReady_quiet hreset
    exact hnext (by simp [hphase]) hq ⟨hcur.1.quiet hq, hcur.2.quiet hq,
      hq.executions.exists_key (resetStateToReady_eq_ok hreset).1⟩
  | markReady hphase hmark => exact inv_markReady h ha hphase hmark
  | notMarked hphase hmark => exact inv_notMarked h ha hphase hmark
  | failExecution hphase hfin =>
    exact hdone (by simp [hphase]) (quiet_of_movesBoth (finalize_movesBoth hfin).2
      (.inr ⟨revertState_not_terminal, by decide⟩))
  | failRequest hphase =>
    exact hdone (by simp [hphase]) (quiet_commit fun db hdb =>
      quiet_of_updatesState (updateJobState_updates hdb) (.inr rfl))
  | revertRequest hphase =>
    exact hnext (by simp [hphase]) (quiet_commit fun db hdb =>
      quiet_of_updatesState (updateJobState_updates hdb) (.inl (by decide))) trivial
  | deleteExecution hphase =>
    exact hdone (by simp [hphase]) (quiet_commit fun db hdb => delete_quiet hdb)

end Formicary.Lifecycle

import Formicary.Verification.Lifecycle.SingleExecution

/-! # Executions and their owners

An execution is made for one request and stays with it. -/

namespace Formicary.Lifecycle

open RequestState Option

def Owns (db : Database) (requestID id : String) : Prop :=
  ∃ e ∈ db.executions, e.id = id ∧ e.jobRequestID = requestID

def Refers (db : Database) (req : JobRequest) : Prop :=
  ∀ id, req.jobExecutionID = some id → Owns db req.id id

def PhaseOwns (db : Database) (requestID : String) : Phase → Prop
  | .selected => True
  | .found old | .failing old => ∀ e, old = some e → Owns db requestID e.id
  | .saved e | .marked e | .reverting e | .deleting e => Owns db requestID e.id

structure Owned (s : State) : Prop where
  requests : ∀ r ∈ s.db.requests, Refers s.db r
  batch : ∀ req ∈ s.batch, Refers s.db req
  request : ∀ a, s.current = some a → Refers s.db a.request
  phase : ∀ a, s.current = some a → PhaseOwns s.db a.request.id a.phase

def KeepsOwners (db db' : Database) : Prop :=
  ∀ {requestID id : String}, Owns db requestID id → Owns db' requestID id

section Owners

variable {db db' : Database} {requestID id : String} {req : JobRequest}

theorem Owns.unique {requestID' : String} (h : Owns db requestID id)
    (h' : Owns db requestID' id) : requestID = requestID' := by
  obtain ⟨e, he, hid, rfl⟩ := h
  obtain ⟨e', he', hid', rfl⟩ := h'
  rw [Table.eq_of_key_eq he he' (hid.trans hid'.symm)]

theorem keepsOwners_of_executions (h : db'.executions = db.executions) : KeepsOwners db db' := by
  intro requestID id hown
  rwa [Owns, h]

theorem Quiet.keepsOwners (h : Quiet db db') : KeepsOwners db db' := by
  rintro requestID id ⟨e, he, rfl, rfl⟩
  obtain ⟨e', he', hid, hquiet⟩ := h.executions.image he
  exact ⟨e', he', hid, hquiet.1.symm⟩

theorem Refers.mono (h : Refers db req) (hkeeps : KeepsOwners db db') : Refers db' req :=
  fun id hid => hkeeps (h id hid)

theorem PhaseOwns.mono {phase : Phase} (h : PhaseOwns db requestID phase)
    (hkeeps : KeepsOwners db db') : PhaseOwns db' requestID phase := by
  cases phase with
  | selected => trivial
  | found | failing => exact fun e he => hkeeps (h e he)
  | saved | marked | reverting | deleting => exact hkeeps h

theorem Quiet.refers (h : Quiet db db') (href : ∀ r ∈ db.requests, Refers db r) :
    ∀ r ∈ db'.requests, Refers db' r := by
  intro r' hr' id hid
  obtain ⟨r, hr, hkey, hquiet⟩ := h.requests.origin r' hr'
  rw [← hkey]
  exact h.keepsOwners (href r hr id (hquiet.1.trans hid))

end Owners

variable {s s' : State} {a : Attempt} {action : Action}

/-- Executions keep their owners from one state to the next, and so does what refers to them. -/
structure StaysOwned (s s' : State) : Prop where
  keeps : KeepsOwners s.db s'.db
  owned : Owned s'

theorem Owned.quiet (h : Owned s) {db : Database} (hquiet : Quiet s.db db)
    (copies : List JobRequest) : StaysOwned s { s with db := db, copies := copies } where
  keeps := hquiet.keepsOwners
  owned :=
    { requests := hquiet.refers h.requests
      batch := fun req hreq => (h.batch req hreq).mono hquiet.keepsOwners
      request := fun b hb => (h.request b hb).mono hquiet.keepsOwners
      phase := fun b hb => (h.phase b hb).mono hquiet.keepsOwners }

section

variable (h : Owned s) (ha : s.current = some a)
include h ha

theorem Owned.attempt {db : Database}
    (hkeeps : KeepsOwners s.db db) (hreqs : ∀ r ∈ db.requests, Refers db r)
    (phase : Option Phase) (hphase : ∀ p, phase = some p → PhaseOwns db a.request.id p) :
    StaysOwned s { s with db := db, current := phase.map fun p => { a with phase := p } } := by
  refine ⟨hkeeps, hreqs, fun req hreq => (h.batch req hreq).mono hkeeps, ?_, ?_⟩
  · intro b hb
    obtain ⟨p, -, rfl⟩ := map_eq_some_iff.mp hb
    exact (h.request a ha).mono hkeeps
  · intro b hb
    obtain ⟨p, hp, rfl⟩ := map_eq_some_iff.mp hb
    exact hphase p hp

theorem owned_create {execution : JobExecution} (hown : execution.jobRequestID = a.request.id)
    (hsave : JobExecutionRepository.save s.db execution = .ok db) :
    StaysOwned s { s with db := db, current := some { a with phase := .saved execution } } := by
  obtain ⟨executions, hins, rfl⟩ := save_eq_ok hsave
  have hmem := fun e => Table.mem_insert? (b := e) hins
  have hkeeps : KeepsOwners s.db { s.db with executions := executions } := by
    rintro requestID id ⟨e, he, hid⟩
    exact ⟨e, (hmem e).mpr (.inr he), hid⟩
  refine h.attempt ha hkeeps (fun r hr => (h.requests r hr).mono hkeeps) (some _) ?_
  rintro p hp
  cases hp
  exact ⟨_, (hmem _).mpr (.inl rfl), rfl, hown⟩

theorem owned_markReady {now : Time} {e : JobExecution}
    (hsaved : PhaseOwns s.db a.request.id (.saved e))
    (hmark : JobRequestRepository.setReadyToExecute s.db a.request.id e.id
      a.request.lastJobExecutionID now = .ok db) :
    StaysOwned s { s with db := db, current := some { a with phase := .marked e } } := by
  obtain ⟨hexec, hreq⟩ := setReadyToExecute_ok hmark
  have hkeeps : KeepsOwners s.db db := keepsOwners_of_executions hexec
  refine h.attempt ha hkeeps ?_ (some _) ?_
  · intro r' hr' id hid
    obtain ⟨r, hr, hkey, hrel⟩ := hreq.origin r' hr'
    rcases hrel with ⟨-, rfl⟩ | ⟨hrid, hnew⟩
    · exact hkeeps (h.requests r' hr id hid)
    rw [hnew] at hid
    cases hid
    rw [← hkey, hrid]
    exact hkeeps hsaved
  · rintro p hp
    cases hp
    exact hkeeps hsaved

theorem owned_schedules {phase : Option Phase} (hsched : Schedules s.db a action db phase) :
    StaysOwned s
      { s with db := db, current := phase.map fun phase => { a with phase := phase } } := by
  -- an attempt that ends, or goes on, after a quiet statement
  have hdone : ∀ {db : Database}, Quiet s.db db →
      StaysOwned s { s with db := db, current := none } :=
    fun hq => h.attempt ha hq.keepsOwners (hq.refers h.requests) none fun p hp => by cases hp
  have hnext : ∀ {db : Database} {phase : Phase}, Quiet s.db db →
      PhaseOwns s.db a.request.id phase →
      StaysOwned s { s with db := db, current := some { a with phase := phase } } := by
    intro db phase hq hp
    refine h.attempt ha hq.keepsOwners (hq.refers h.requests) (some phase) ?_
    rintro p hphase
    cases hphase
    exact hp.mono hq.keepsOwners
  have howns := h.phase a ha
  cases hsched with
  | drop | sent => exact hdone (Quiet.refl _)
  | gaveUp | moved | notReset | notFailed => exact hnext (Quiet.refl _) nofun
  | postpone => exact hdone (quiet_commit fun db hdb => incrementScheduleAttempts_quiet hdb)
  | lookup _ hlook =>
    have hsome := (lookupExecution_spec hlook).2.2.1
    exact hnext (lookupExecution_quiet hlook) fun e he => h.request a ha _ (hsome e he).2
  | create _ _ _ hsave => exact owned_create h ha rfl hsave
  | reset hphase hlive hreset =>
    rw [hphase] at howns
    exact hnext (resetStateToReady_quiet hreset) (howns _ (filter_eq_some_iff.mp hlive).1)
  | markReady hphase hmark => exact owned_markReady h ha (hphase ▸ howns) hmark
  | notMarked hphase =>
    rw [hphase] at howns
    refine hnext (Quiet.refl _) ?_
    rintro e' he'
    cases he'
    exact howns
  | failExecution _ hfin =>
    exact hdone (quiet_of_movesBoth (finalize_movesBoth hfin).2
      (.inr ⟨revertState_not_terminal, by decide⟩))
  | failRequest =>
    exact hdone (quiet_commit fun db hdb =>
      quiet_of_updatesState (updateJobState_updates hdb) (.inr rfl))
  | notSent hphase => exact hnext (Quiet.refl _) (hphase ▸ howns :)
  | revertRequest hphase =>
    rw [hphase] at howns
    exact hnext (quiet_commit fun db hdb =>
      quiet_of_updatesState (updateJobState_updates hdb) (.inl (by decide))) howns
  | deleteExecution => exact hdone (quiet_commit fun db hdb => delete_quiet hdb)

end

theorem owned_step (h : Owned s) (hs : step s action = some s') : StaysOwned s s' := by
  cases steps_of_step hs with
  | submit _ hnone hins =>
    refine ⟨fun howns => howns, ?_, h.batch, h.request, h.phase⟩
    intro r hr id hid
    rcases (Table.mem_insert? hins).mp hr with rfl | hr
    · rw [hnone] at hid
      cases hid
    · exact h.requests r hr id hid
  | nextSchedulable =>
    exact ⟨fun howns => howns, h.requests,
      fun req hreq => h.requests req (List.mem_filter.mp hreq).1, h.request, h.phase⟩
  | @pick req _ hbatch =>
    refine ⟨fun howns => howns, h.requests, fun req hreq => h.batch req ?_, ?_, ?_⟩
    · rw [hbatch]
      exact List.mem_cons_of_mem _ hreq
    · rintro b hb
      cases hb
      exact h.batch req (by rw [hbatch]; exact List.mem_cons_self)
    · rintro b hb
      cases hb
      trivial
  | @restart _ _ _ _ _ db hres =>
    obtain ⟨hexec, hreq⟩ := restart_eq_ok hres
    have hkeeps : KeepsOwners s.db db := keepsOwners_of_executions hexec
    refine ⟨hkeeps, ?_, fun req hreq => (h.batch req hreq).mono hkeeps,
      fun b hb => (h.request b hb).mono hkeeps, fun b hb => (h.phase b hb).mono hkeeps⟩
    intro r' hr' id' hid'
    obtain ⟨r, hr, -, hrel⟩ := hreq.origin r' hr'
    rcases hrel with ⟨-, rfl⟩ | ⟨-, -, hnone, -⟩
    · exact hkeeps (h.requests r' hr id' hid')
    rw [hnone] at hid'
    cases hid'
  | quiet hquiet => exact h.quiet hquiet _
  | schedules ha hsched => exact owned_schedules h ha hsched

theorem owned_initial : Owned State.initial := by
  constructor <;> intro x hx <;> cases hx

end Formicary.Lifecycle

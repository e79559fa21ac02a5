import Formicary.Verification.Lifecycle.Quiet

/-! # One live execution per request

The request refers to its live execution, unless the scheduler has saved the execution and not yet
marked the request, or the request has ended. -/

namespace Formicary.Lifecycle

open RequestState

def AtMostOneLive (db : Database) : Prop :=
  ∀ e ∈ db.executions, ∀ e' ∈ db.executions,
    e.jobRequestID = e'.jobRequestID → Live e → Live e' → e.id = e'.id

def LiveOnly (db : Database) (requestID id : String) : Prop :=
  ∀ e ∈ db.executions, e.jobRequestID = requestID → Live e → e.id = id

def NoLive (db : Database) (requestID : String) : Prop :=
  ∀ e ∈ db.executions, e.jobRequestID = requestID → ¬ Live e

instance (db : Database) : Decidable (AtMostOneLive db) :=
  inferInstanceAs (Decidable (∀ e ∈ db.executions, ∀ e' ∈ db.executions, _))

instance (db : Database) (requestID : String) : Decidable (NoLive db requestID) :=
  inferInstanceAs (Decidable (∀ e ∈ db.executions, _))

def Action.restarts : Action → Option String
  | .restart _ id _ _ _ => some id
  | _ => none

/-- A restart is only applied to a request that has no live execution. -/
def RestartsSettled (s : State) (a : Action) : Prop :=
  ∀ id ∈ a.restarts, NoLive s.db id

instance (s : State) (a : Action) : Decidable (RestartsSettled s a) :=
  inferInstanceAs (Decidable (∀ id ∈ a.restarts, NoLive s.db id))

/-- The request exists and only the scheduler or a restart will move it. -/
structure Waits (requests : Table JobRequest.id) (requestID : String) : Prop where
  row : ∃ r ∈ requests, r.id = requestID
  parked : ∀ r ∈ requests, r.id = requestID → Parked r.jobState

/-- The scheduler's copy of a request it has yet to work on. -/
structure CopyInv (db : Database) (req : JobRequest) : Prop where
  waits : Waits db.requests req.id
  referenced : ∀ e ∈ db.executions, e.jobRequestID = req.id → Live e →
    req.jobExecutionID = some e.id

def PhaseInv (db : Database) (req : JobRequest) : Phase → Prop
  | .selected => CopyInv db req
  | .found old =>
    Waits db.requests req.id ∧
      match old.filter fun e => !e.jobState.isTerminal with
      | none => NoLive db req.id
      | some e => LiveOnly db req.id e.id
  | .saved e =>
    Waits db.requests req.id ∧ LiveOnly db req.id e.id ∧ ∃ row ∈ db.executions, row.id = e.id
  | _ => True

def Held (s : State) (requestID id : String) : Prop :=
  ∃ a e, s.current = some a ∧ a.phase = .saved e ∧ a.request.id = requestID ∧ e.id = id

structure Inv (s : State) : Prop where
  unique : AtMostOneLive s.db
  requestIDs : ∀ r ∈ s.db.requests, r.id ≠ ""
  executionIDs : ∀ e ∈ s.db.executions, e.id ≠ ""
  referenced : ∀ e ∈ s.db.executions, Live e → ∀ r ∈ s.db.requests, r.id = e.jobRequestID →
    r.jobExecutionID = some e.id ∨ r.jobState.isTerminal = true ∨
      Held s r.id e.id ∧ (r.jobState = pending ∨ r.jobState = paused)
  owned : ∀ e ∈ s.db.executions, ∃ r ∈ s.db.requests, r.id = e.jobRequestID
  batch : ∀ req ∈ s.batch, CopyInv s.db req
  distinct : (s.batch.map JobRequest.id).Nodup
  apart : ∀ a, s.current = some a → ∀ req ∈ s.batch, req.id ≠ a.request.id
  current : ∀ a, s.current = some a → PhaseInv s.db a.request a.phase

section Quiet

variable {db db' : Database} {requestID id : String} {req : JobRequest}

theorem Waits.quiet (h : Waits db.requests requestID) (hq : Quiet db db') :
    Waits db'.requests requestID := by
  constructor
  · exact hq.requests.exists_key h.row
  · intro r' hr' hid
    obtain ⟨r, hr, hk, hR⟩ := hq.requests.origin r' hr'
    exact hR.2.1 (h.parked r hr (hk.trans hid))

theorem Quiet.live_origin (hq : Quiet db db') {e' : JobExecution} (he' : e' ∈ db'.executions)
    (hl : Live e') : ∃ e ∈ db.executions, e.id = e'.id ∧ e.jobRequestID = e'.jobRequestID ∧
      Live e := by
  obtain ⟨e, he, hk, hR⟩ := hq.executions.origin e' he'
  exact ⟨e, he, hk, hR.1, hR.2 hl⟩

theorem LiveOnly.quiet (h : LiveOnly db requestID id) (hq : Quiet db db') :
    LiveOnly db' requestID id := by
  intro e' he' hreq hl
  obtain ⟨e, he, hk, hr, hl'⟩ := hq.live_origin he' hl
  rw [← hk]
  exact h e he (hr.trans hreq) hl'

theorem NoLive.quiet (h : NoLive db requestID) (hq : Quiet db db') : NoLive db' requestID := by
  intro e' he' hreq hl
  obtain ⟨e, he, _, hr, hl'⟩ := hq.live_origin he' hl
  exact h e he (hr.trans hreq) hl'

theorem AtMostOneLive.quiet (h : AtMostOneLive db) (hq : Quiet db db') : AtMostOneLive db' := by
  intro e' he' f' hf' hreq hle hlf
  obtain ⟨e, he, hke, hre, hle'⟩ := hq.live_origin he' hle
  obtain ⟨f, hf, hkf, hrf, hlf'⟩ := hq.live_origin hf' hlf
  rw [← hke, ← hkf]
  exact h e he f hf (by rw [hre, hrf, hreq]) hle' hlf'

theorem CopyInv.quiet (h : CopyInv db req) (hq : Quiet db db') : CopyInv db' req := by
  refine ⟨h.waits.quiet hq, ?_⟩
  intro e' he' hreq hl
  obtain ⟨e, he, hk, hr, hl'⟩ := hq.live_origin he' hl
  rw [← hk]
  exact h.referenced e he (hr.trans hreq) hl'

theorem PhaseInv.quiet {phase : Phase} (h : PhaseInv db req phase) (hq : Quiet db db') :
    PhaseInv db' req phase := by
  cases phase with
  | selected => exact CopyInv.quiet h hq
  | found =>
    obtain ⟨hw, hl⟩ := h
    refine ⟨hw.quiet hq, ?_⟩
    split at hl
    · exact hl.quiet hq
    · exact hl.quiet hq
  | saved =>
    obtain ⟨hw, hl, hrow⟩ := h
    exact ⟨hw.quiet hq, hl.quiet hq, hq.executions.exists_key hrow⟩
  | failing | marked | reverting | deleting => trivial

end Quiet

theorem Inv.quiet_step {s s' : State} (h : Inv s) (hq : Quiet s.db s'.db) (hb : s'.batch = s.batch)
    (hcur : ∀ a', s'.current = some a' → ∃ a, s.current = some a ∧ a'.request = a.request ∧
      PhaseInv s'.db a'.request a'.phase)
    (hheld : ∀ requestID id, Held s requestID id → Held s' requestID id) : Inv s' := by
  constructor
  · exact h.unique.quiet hq
  · exact hq.requests.forall_key (P := (· ≠ "")) h.requestIDs
  · exact hq.executions.forall_key (P := (· ≠ "")) h.executionIDs
  · intro e' he' hl r' hr' hid
    obtain ⟨e, he, hke, hre, hl'⟩ := hq.live_origin he' hl
    obtain ⟨r, hr, hkr, href, hpark, hterm⟩ := hq.requests.origin r' hr'
    have hid' : r.id = e.jobRequestID := by rw [hre, ← hid]; exact hkr
    rcases h.referenced e he hl' r hr hid' with h1 | h1 | ⟨h1, h2⟩
    · exact .inl (by rw [← href, h1, hke])
    · exact .inr (.inl (hterm h1))
    have hp : Parked r.jobState := by
      rcases h2 with h2 | h2
      · exact .inl h2
      · exact .inr (.inl h2)
    have hh : Held s' r'.id e'.id := by
      rw [← hke]
      exact hkr ▸ hheld _ _ h1
    rcases hpark hp with hp' | hp' | hp'
    · exact .inr (.inr ⟨hh, .inl hp'⟩)
    · exact .inr (.inr ⟨hh, .inr hp'⟩)
    · exact .inr (.inl hp')
  · intro e' he'
    obtain ⟨e, he, _, hR⟩ := hq.executions.origin e' he'
    rw [← hR.1]
    exact hq.requests.exists_key (h.owned e he)
  · intro req hreq
    exact (h.batch req (hb ▸ hreq)).quiet hq
  · exact hb ▸ h.distinct
  · intro a' ha' req hreq
    obtain ⟨a, ha, hsame, _⟩ := hcur a' ha'
    rw [hsame]
    exact h.apart a ha req (hb ▸ hreq)
  · intro a' ha'
    obtain ⟨_, _, _, hp⟩ := hcur a' ha'
    exact hp

theorem Inv.quiet {s : State} {db' : Database} (h : Inv s) (hq : Quiet s.db db')
    (copies : List JobRequest) : Inv { s with db := db', copies := copies } := by
  refine h.quiet_step hq rfl ?_ ?_
  · intro a ha
    exact ⟨a, ha, rfl, (h.current a ha).quiet hq⟩
  · intro requestID id hheld
    exact hheld

theorem Inv.advance {s s' : State} {a : Attempt} (h : Inv s) (ha : s.current = some a)
    (hphase : ∀ e, a.phase ≠ .saved e) (hq : Quiet s.db s'.db) (hb : s'.batch = s.batch)
    (hcur : ∀ a', s'.current = some a' → a'.request = a.request ∧
      PhaseInv s'.db a'.request a'.phase) : Inv s' := by
  refine h.quiet_step hq hb ?_ ?_
  · intro a' ha'
    obtain ⟨hsame, hp⟩ := hcur a' ha'
    exact ⟨a, ha, hsame, hp⟩
  · rintro requestID id ⟨b, e, hb', he, _⟩
    rw [ha] at hb'
    cases hb'
    exact absurd he (hphase e)

end Formicary.Lifecycle

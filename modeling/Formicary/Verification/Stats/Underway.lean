import Formicary.Model.JobManager
import Formicary.Verification.Stats.Registry

/-! # Runs under way

A run of a request is that of its execution: it has started with the execution, and it ends when the
execution is finished, paused or deleted, or the request itself has ended. -/

namespace Formicary

open RequestState Option

def JobExecution.isUnderway (e : JobExecution) : Bool :=
  e.active && !e.jobState.isTerminal && e.jobState != paused

namespace Database

def isUnderway (db : Database) (req : JobRequest) : Bool :=
  !req.jobState.isTerminal &&
    (req.jobExecutionID.bind db.executions.find?).any JobExecution.isUnderway

def underwayCount (db : Database) (key : String) : ℕ :=
  db.requests.affected fun req => req.getUserJobTypeKey == key && db.isUnderway req

/-- The states an execution may be in for each state of its request. A request in the queue has an
execution if it was requeued or approved. -/
def agrees : RequestState → RequestState → Bool
  | pending, e => e == ready || e == executing || e == manualApprovalRequired
  | ready, e => e == ready
  | executing, e => e == executing
  | manualApprovalRequired, e => e == manualApprovalRequired
  | paused, e => e == paused
  | completed, e | failed, e | cancelled, e => e.isTerminal || e == paused
  | _, _ => false

/-- The execution is that of the request. -/
structure Pairs (req : JobRequest) (e : JobExecution) : Prop where
  id : req.jobExecutionID = some e.id
  named : e.id ≠ ""
  active : e.active = true
  identity : e.summary.identity = req.summary.identity
  states : agrees req.jobState e.jobState = true

def Paired (db : Database) (req : JobRequest) : Prop :=
  req.jobExecutionID = none ∧ (req.jobState = pending ∨ req.jobState = failed) ∨
    ∃ e, db.executions.find? e.id = some e ∧ Pairs req e

variable {db db' : Database} {req req' other : JobRequest} {e : JobExecution}

theorem Pairs.jobRequestID (h : Pairs req e) : e.jobRequestID = req.id :=
  congrArg Prod.fst h.identity

theorem Pairs.of_request (h : Pairs req e) (hid : req'.jobExecutionID = req.jobExecutionID)
    (hident : req'.summary.identity = req.summary.identity)
    (hsts : agrees req'.jobState e.jobState = true) : Pairs req' e :=
  ⟨hid.trans h.id, h.named, h.active, h.identity.trans hident.symm, hsts⟩

theorem Pairs.isUnderway (h : Pairs req e) (he : db.executions.find? e.id = some e) :
    db.isUnderway req = (!req.jobState.isTerminal && req.jobState != paused) := by
  unfold Database.isUnderway
  rw [h.id, bind_some, he, any_some, JobExecution.isUnderway, h.active]
  have hsts := h.states
  cases hr : req.jobState <;> rw [hr] at hsts <;>
    simp only [agrees, Bool.or_eq_true, beq_iff_eq, Bool.false_eq_true] at hsts
  case pending => rcases hsts with (hx | hx) | hx <;> rw [hx] <;> rfl
  case completed | failed | cancelled => rfl
  all_goals
    rw [hsts]
    rfl

theorem isUnderway_of_none (h : req.jobExecutionID = none) : db.isUnderway req = false := by
  simp [Database.isUnderway, h]

theorem Paired.exists_pairs (h : Paired db req) (hne : req.jobState ≠ pending)
    (hne' : req.jobState ≠ failed) : ∃ e, db.executions.find? e.id = some e ∧ Pairs req e := by
  rcases h with ⟨_, hstate | hstate⟩ | h
  · exact absurd hstate hne
  · exact absurd hstate hne'
  · exact h

/-- One request is replaced, and no execution changes but the one it then refers to, which was its
own or is new. -/
structure Replaces (db db' : Database) (req req' : JobRequest) : Prop where
  mem : req ∈ db.requests
  requests : db'.requests = db.requests.set req'
  identity : req'.summary.identity = req.summary.identity
  executions : ∀ id, req'.jobExecutionID ≠ some id →
    db'.executions.find? id = db.executions.find? id
  executionID : req'.jobExecutionID = req.jobExecutionID ∨
    ∃ id, req'.jobExecutionID = some id ∧ db.executions.find? id = none

theorem names_of_identity (h : req'.summary.identity = req.summary.identity) : req'.id = req.id ∧
    req'.getUserJobTypeKey = req.getUserJobTypeKey ∧ req'.userID = req.userID := by
  simp only [JobRequestSummary.identity, Prod.mk.injEq] at h
  unfold JobRequest.getUserJobTypeKey JobRequestSummary.getUserJobTypeKey
  rw [h.2.1, h.2.2.1, h.2.2.2.1, h.2.2.2.2]
  exact ⟨h.1, rfl, h.2.2.2.1⟩

namespace Replaces

variable (h : Replaces db db' req req')
include h

theorem id_eq : req'.id = req.id := (names_of_identity h.identity).1

theorem key_eq : req'.getUserJobTypeKey = req.getUserJobTypeKey :=
  (names_of_identity h.identity).2.1

theorem userID_eq : req'.userID = req.userID := (names_of_identity h.identity).2.2

theorem mem_requests :
    other ∈ db'.requests ↔ other = req' ∨ other ∈ db.requests ∧ other.id ≠ req.id := by
  rw [h.requests]
  exact Table.mem_set h.mem h.id_eq

theorem mem_self : req' ∈ db'.requests := h.mem_requests.mpr (.inl rfl)

variable (hpaired : ∀ r ∈ db.requests, Paired db r) (hother : other ∈ db.requests)
  (hne : other.id ≠ req.id)
include hpaired hother hne

theorem executions_other {id : String} (hid : other.jobExecutionID = some id) :
    db'.executions.find? id = db.executions.find? id := by
  apply h.executions
  intro hid'
  rcases hpaired other hother with ⟨hnone, _⟩ | ⟨x, hx, hpairs⟩
  · rw [hnone] at hid
    cases hid
  have hxid : x.id = id := some.inj (hpairs.id.symm.trans hid)
  rcases h.executionID with hsame | ⟨i, hi, hfresh⟩
  · rcases hpaired req h.mem with ⟨hnone, _⟩ | ⟨y, hy, hpairs'⟩
    · rw [hsame, hnone] at hid'
      cases hid'
    · have hyid : y.id = id := some.inj (hpairs'.id.symm.trans (hsame.symm.trans hid'))
      rw [hyid, ← hxid] at hy
      have hxy : x = y := some.inj (hx.symm.trans hy)
      exact hne (hpairs.jobRequestID.symm.trans (hxy ▸ hpairs'.jobRequestID))
  · rw [hi] at hid'
    rw [some.inj hid', ← hxid, hx] at hfresh
    cases hfresh

theorem isUnderway_other : db'.isUnderway other = db.isUnderway other := by
  unfold Database.isUnderway
  cases hid : other.jobExecutionID with
  | none => rfl
  | some => rw [bind_some, bind_some, h.executions_other hpaired hother hne hid]

theorem paired_other : Paired db' other := by
  rcases hpaired other hother with hnone | ⟨x, hx, hpairs⟩
  · exact .inl hnone
  · exact .inr ⟨x, (h.executions_other hpaired hother hne hpairs.id).trans hx, hpairs⟩

omit hother hne

theorem paired (hreq' : Paired db' req') : ∀ r ∈ db'.requests, Paired db' r := by
  intro r hr
  rcases h.mem_requests.mp hr with rfl | ⟨hr, hne⟩
  · exact hreq'
  · exact h.paired_other hpaired hr hne

theorem underwayCount_eq (key : String) :
    db'.underwayCount key + (req.getUserJobTypeKey == key && db.isUnderway req).toNat =
      db.underwayCount key + (req.getUserJobTypeKey == key && db'.isUnderway req').toNat := by
  unfold underwayCount
  rw [h.requests, ← h.key_eq]
  have hcount := Table.affected_set (t := db.requests) (a := req)
    (p := fun r => r.getUserJobTypeKey == key && db.isUnderway r)
    (q := fun r => r.getUserJobTypeKey == key && db'.isUnderway r) h.mem h.id_eq
    (fun r hr hne => by rw [h.isUnderway_other hpaired hr hne])
  rwa [← h.key_eq] at hcount

end Replaces

theorem Replaces.trans {db'' : Database} {req'' : JobRequest} (h : Replaces db db' req req')
    (h' : Replaces db' db'' req' req'') (hid : req''.jobExecutionID = req'.jobExecutionID) :
    Replaces db db'' req req'' where
  mem := h.mem
  requests := by rw [h'.requests, h.requests, Table.set_set h'.id_eq]
  identity := h'.identity.trans h.identity
  executions := by
    intro id hne
    rw [h'.executions id hne, h.executions id (hid ▸ hne)]
  executionID := by
    rw [hid]
    exact h.executionID

end Database

end Formicary

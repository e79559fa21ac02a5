import Formicary.Verification.Lifecycle.Scheduler

/-! # One live execution per request

Every action keeps the invariant, given that restarts are applied to settled requests only. -/

namespace Formicary.Lifecycle

open RequestState

variable {s s' : State}

section Waits

variable {db db' : Database} {req : JobRequest} (hexec : db'.executions = db.executions)
  (hwaits : ∀ id, Waits db.requests id → Waits db'.requests id)

include hexec hwaits

theorem CopyInv.of_waits (h : CopyInv db req) : CopyInv db' req := by
  refine ⟨hwaits _ h.waits, ?_⟩
  simp only [hexec]
  exact h.referenced

theorem PhaseInv.of_waits {phase : Phase} (h : PhaseInv db req phase) : PhaseInv db' req phase := by
  cases phase with
  | selected => exact CopyInv.of_waits hexec hwaits h
  | found =>
    refine ⟨hwaits _ h.1, ?_⟩
    simp only [NoLive, LiveOnly, hexec]
    exact h.2
  | saved =>
    refine ⟨hwaits _ h.1, ?_⟩
    simp only [LiveOnly, hexec]
    exact h.2
  | failing | marked | reverting | deleting => trivial

end Waits

theorem inv_submit {req : JobRequest} {requests : Table JobRequest.id} (h : Inv s)
    (hne : req.id ≠ "") (hins : s.db.requests.insert? req = some requests) :
    Inv { s with db := { s.db with requests := requests } } := by
  have hmem := fun r => Table.mem_insert? (b := r) hins
  have hfresh := (Table.insert?_eq_some hins).1
  have hwaits : ∀ id, Waits s.db.requests id → Waits requests id := by
    rintro id ⟨⟨r, hr, hid⟩, hpark⟩
    refine ⟨⟨r, (hmem r).mpr (.inr hr), hid⟩, ?_⟩
    intro r' hr' hid'
    rcases (hmem r').mp hr' with rfl | hr'
    · exact absurd (hid.trans hid'.symm) (hfresh r hr)
    · exact hpark r' hr' hid'
  have hexec : ({ s.db with requests } : Database).executions = s.db.executions := rfl
  refine { h with requestIDs := ?_, referenced := ?_, owned := ?_, batch := ?_, current := ?_ }
  · intro r hr
    rcases (hmem r).mp hr with rfl | hr
    · exact hne
    · exact h.requestIDs r hr
  · intro e he hl r hr hid
    rcases (hmem r).mp hr with rfl | hr
    · -- no execution belongs to a request that did not exist
      obtain ⟨r', hr', hid'⟩ := h.owned e he
      exact absurd (hid'.trans hid.symm) (hfresh r' hr')
    · exact h.referenced e he hl r hr hid
  · intro e he
    obtain ⟨r, hr, hid⟩ := h.owned e he
    exact ⟨r, (hmem r).mpr (.inr hr), hid⟩
  · exact fun c hc => (h.batch c hc).of_waits hexec hwaits
  · exact fun b hb => (h.current b hb).of_waits hexec hwaits

variable {qc : QueryContext} {id newJobDefinitionID : String} {hard : Bool} {now : Time}

theorem inv_restart {db' : Database} (h : Inv s) (hset : NoLive s.db id)
    (hs : JobRequestRepository.restart s.db qc id hard newJobDefinitionID now = .ok db') :
    Inv { s with db := db' } := by
  obtain ⟨hexec, hreq⟩ := restart_eq_ok hs
  have hwaits : ∀ requestID, Waits s.db.requests requestID → Waits db'.requests requestID := by
    rintro requestID ⟨hrow, hpark⟩
    refine ⟨hreq.exists_key hrow, ?_⟩
    intro c hc hcid
    obtain ⟨b, hb, hkb, hrel⟩ := hreq.origin c hc
    rcases hrel with ⟨_, rfl⟩ | ⟨_, hpend, _⟩
    · exact hpark c hb hcid
    · exact .inl hpend
  refine ⟨?_, ?_, ?_, ?_, ?_, ?_, h.distinct, h.apart, ?_⟩
  · simp only [AtMostOneLive, hexec]
    exact h.unique
  · exact hreq.forall_key (P := (· ≠ "")) h.requestIDs
  · simp only [hexec]
    exact h.executionIDs
  · simp only [hexec]
    intro e he hl r' hr' hown
    obtain ⟨r, hr, hk, hrel⟩ := hreq.origin r' hr'
    rcases hrel with ⟨_, rfl⟩ | ⟨heq, _⟩
    · exact h.referenced e he hl r' hr hown
    · exact absurd hl (hset e he (by rw [← hown, ← hk]; exact heq))
  · simp only [hexec]
    exact fun e he => hreq.exists_key (h.owned e he)
  · exact fun req hmem => (h.batch req hmem).of_waits hexec hwaits
  · exact fun b hb => (h.current b hb).of_waits hexec hwaits

theorem inv_step {action : Action} (h : Inv s) (hok : RestartsSettled s action)
    (hs : step s action = some s') : Inv s' := by
  cases steps_of_step hs with
  | submit hne _ hins => exact inv_submit h hne hins
  | nextSchedulable hcur => exact inv_nextSchedulable h hcur
  | pick hbatch hcur => exact inv_pick h hbatch hcur
  | restart hres => exact inv_restart h (hok _ rfl) hres
  | quiet hquiet => exact h.quiet hquiet _
  | schedules ha hsched => exact inv_schedules h ha hsched

theorem inv_initial : Inv State.initial := by
  refine ⟨?_, ?_, ?_, ?_, ?_, ?_, List.nodup_nil, ?_, ?_⟩ <;> intro x hx <;> cases hx

/-- When restarts are applied to settled requests only, no interleaving gives a request two live
executions. -/
theorem atMostOneLive_of_restartsSettled {s : State}
    (h : system.ReachableWith RestartsSettled s) : AtMostOneLive s.db := by
  have hinv : Inv s :=
    h.invariant (fun _ hs => hs ▸ inv_initial) fun _ _ _ => inv_step
  exact hinv.unique

def submitted (id : String) : JobRequest where
  id := id
  jobType := "build"
  userID := "u1"
  jobDefinitionID := "d1"
  jobState := pending
  userKey := "k1"

def scheduleUpToSave (id execID : String) : List Action :=
  [.nextSchedulable [id] 0, .pick, .lookup 0, .saveExecution { freshID := execID }]

/-- The user cancels while the scheduler has saved an execution and not yet marked the request.
The mark fails, but the execution is not rolled back; after a restart it gets company. -/
def cancelDuringSchedule : List Action :=
  let admin := QueryContext.newQueryContext none
  .submit (submitted "r1") :: scheduleUpToSave "r1" "e1" ++
    [.read admin "r1", .cancel admin (submitted "r1") 0, .markReady 0, .failExecution {},
      .failRequest {}, .restart admin "r1" false "" 0] ++
    scheduleUpToSave "r1" "e2"

theorem two_live_executions : ¬ ∀ s, system.Reachable s → AtMostOneLive s.db := by
  intro h
  obtain ⟨s, hreach, htwo⟩ := system.exists_reachableWith (fun _ _ => True)
    (fun s => ¬ AtMostOneLive s.db) cancelDuringSchedule rfl (by decide)
  exact htwo (h s hreach)

def failAndRestart : List Action :=
  .submit (submitted "r1") :: scheduleUpToSave "r1" "e1" ++
    [.markReady 0, .sendLaunchEvent true, .setExecuting "e1" 0, .finalize "e1" .executionFailed {},
      .restart (QueryContext.newQueryContext none) "r1" false "" 0] ++
    scheduleUpToSave "r1" "e2" ++ [.markReady 0]

theorem atMostOneLive_failAndRestart :
    ∃ s, system.ReachableWith RestartsSettled s ∧ s.db.executions.rows.length = 2 ∧
      AtMostOneLive s.db := by
  obtain ⟨s, hreach, hrows⟩ := system.exists_reachableWith RestartsSettled
    (fun s => s.db.executions.rows.length = 2) failAndRestart rfl (by decide)
  exact ⟨s, hreach, hrows, atMostOneLive_of_restartsSettled hreach⟩

end Formicary.Lifecycle

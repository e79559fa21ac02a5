import Formicary.Verification.Lifecycle.Changes
import Formicary.Verification.Lifecycle.SingleExecution

/-! # Ended requests with a live execution

A statement that ends a request on its own strands the execution that the request refers to, if that
is live. -/

namespace Formicary.Lifecycle

open RequestState JobRequestRepository Table Bool

/-- An active execution that an ended request refers to has ended. -/
def Settled (db : Database) : Prop :=
  ∀ r ∈ db.requests, r.jobState.isTerminal = true →
    ∀ e ∈ db.executions, r.jobExecutionID = some e.id → e.active = true →
      e.jobState.isTerminal = true

instance (db : Database) : Decidable (Settled db) := by
  unfold Settled
  infer_instance

def Referenced (db : Database) : Prop :=
  ∀ r ∈ db.requests, ∀ id, r.jobExecutionID = some id → ∃ e ∈ db.executions, e.id = id

def Covers (db : Database) (p : JobRequest → Bool) (q : JobExecution → Bool) : Prop :=
  ∀ r ∈ db.requests, p r = true →
    ∀ e ∈ db.executions, r.jobExecutionID = some e.id → Live e → q e = true

/-- A statement that would end a request alone is applied where no live execution is behind the
request, and the others find the live execution behind it. -/
def EndsBoth (s : State) : Action → Prop
  | .failRequest _ =>
    ∀ a ∈ s.current, (revertState a.request).canTransitionTo failed = true →
      Covers s.db (fun r => r.id == a.request.id && r.jobState == revertState a.request)
        fun _ => false
  | .updateRequest id u _ =>
    u.newState.isTerminal = true → u.oldState.canTransitionTo u.newState = true →
      Covers s.db (fun r => r.id == id && r.jobState == u.oldState) fun _ => false
  | .cancel qc req _ =>
    Covers s.db (cancellable qc req) fun e => some e.id == req.jobExecutionID &&
        qc.orgElseUserWhere false e.userID e.organizationID
  | .reject qc req _ _ _ _ _ _ =>
    Covers s.db (Approval.waitingRequest qc req)
      fun e => some e.id == req.jobExecutionID && e.jobState == manualApprovalRequired
  | _ => True

variable {db db' : Database} {e : JobExecution}

theorem Settled.not_live (h : Settled db) {r : JobRequest}
    (hr : r ∈ db.requests) (hend : r.jobState.isTerminal = true) (he : e ∈ db.executions)
    (href : r.jobExecutionID = some e.id) : ¬ Live e := by
  intro hl
  have hterm := h r hr hend e he href hl.1
  exact false_ne_true (hl.2.symm.trans hterm)

theorem settled_of_not_live (h : ∀ r ∈ db.requests, r.jobState.isTerminal = true →
    ∀ e ∈ db.executions, r.jobExecutionID = some e.id → ¬ Live e) : Settled db := by
  intro r hr hend e he href hact
  by_contra hlive
  exact h r hr hend e he href ⟨hact, eq_false_of_not_eq_true hlive⟩

variable {q : JobExecution → Bool}

theorem live_mem_update {executions : Table JobExecution.id}
    {g : JobExecution → JobExecution} (hg : ∀ e, (g e).id = e.id)
    (hterm : ∀ e, (g e).jobState.isTerminal = true) (hl : Live e) :
    e ∈ executions.update q g hg ↔ e ∈ executions ∧ q e = false := by
  rw [mem_update]
  constructor
  · rintro ⟨e₀, he₀, rfl⟩
    by_cases hq : q e₀ = true
    · rw [if_pos hq] at hl
      exact absurd (hl.2.symm.trans (hterm e₀)) false_ne_true
    · rw [if_neg hq]
      exact ⟨he₀, eq_false_of_not_eq_true hq⟩
  · rintro ⟨he, hq⟩
    exact ⟨e, he, by simp [hq]⟩

variable {p : JobRequest → Bool}

theorem settled_update_iff {f : JobRequest → JobRequest}
    (hf : ∀ r, (f r).id = r.id) (hset : Settled db)
    (hreqs : db'.requests = db.requests.update p f hf)
    (hexecs : ∀ e, Live e → (e ∈ db'.executions ↔ e ∈ db.executions ∧ q e = false))
    (hend : ∀ r, (f r).jobState.isTerminal = true)
    (href : ∀ r, (f r).jobExecutionID = r.jobExecutionID) : Settled db' ↔ Covers db p q := by
  constructor
  · intro hset' r hr hp e he hid hl
    by_contra hq
    have hr' : f r ∈ db'.requests := by
      rw [hreqs]
      exact mem_update.mpr ⟨r, hr, if_pos hp⟩
    have he' : e ∈ db'.executions :=
      (hexecs e hl).mpr ⟨he, eq_false_of_not_eq_true hq⟩
    exact hset'.not_live hr' (hend r) he' ((href r).trans hid) hl
  · intro hcov
    refine settled_of_not_live ?_
    intro r' hr' hend' e he' hid hl
    obtain ⟨he, hq⟩ := (hexecs e hl).mp he'
    rw [hreqs] at hr'
    obtain ⟨r, hr, rfl⟩ := mem_update.mp hr'
    by_cases hp : p r = true
    · rw [if_pos hp, href] at hid
      exact false_ne_true (hq.symm.trans (hcov r hr hp e he hid hl))
    · rw [if_neg hp] at hid hend'
      exact hset.not_live hr hend' he hid hl

theorem covers_of_not_selected (h : ∀ r ∈ db.requests, p r = false) : Covers db p q := by
  intro r hr hp
  exact absurd ((h r hr).symm.trans hp) false_ne_true

variable {userKey : String} {now : Time}
  {id errorMessage errorCode : String} {old new : RequestState} {delay : Time}
  {retried pausedCount : ℕ}

theorem updateJobState_forbidden (hforb : ¬ old.canTransitionTo new = true) :
    commit db (updateJobState db id (some old) new errorMessage errorCode
      delay retried pausedCount userKey now) = db := by
  simp [updateJobState, hforb, commit]

theorem updateJobState_settled_iff (hset : Settled db) (hnew : new.isTerminal = true)
    (hallow : old.canTransitionTo new = true) :
    Settled (commit db (updateJobState db id (some old) new errorMessage
      errorCode delay retried pausedCount userKey now)) ↔
      Covers db (fun r => r.id == id && r.jobState == old) fun _ => false := by
  unfold updateJobState
  simp only [hallow, Bool.not_true, Bool.false_eq_true, if_false]
  split
  · next hupd =>
    simp only [commit]
    exact settled_update_iff _ hset (updateOne?_eq_some_iff.mp hupd).2
      (fun e _ => by simp) (fun _ => hnew) (fun _ => rfl)
  next hupd =>
  refine iff_of_true hset (covers_of_not_selected ?_)
  refine not_selected_of_updateOne? (k := id) ?_ hupd
  intro r hp
  exact beq_iff_eq.mp ((Bool.and_eq_true _ _).mp hp).1

variable {qc : QueryContext} {req : JobRequest}

theorem cancelTransaction_settled_iff (hset : Settled db) :
    Settled (commit db (cancelTransaction db qc req now)) ↔ Covers db (cancellable qc req)
        fun e => some e.id == req.jobExecutionID &&
          qc.orgElseUserWhere false e.userID e.organizationID := by
  unfold cancelTransaction
  split
  · next hupd =>
    refine iff_of_true hset (covers_of_not_selected ?_)
    exact not_selected_of_updateOne? (k := req.id) (fun _ => cancellable_id) hupd
  next hupd =>
  split
  · next hnone =>
    refine settled_update_iff _ hset (updateOne?_eq_some_iff.mp hupd).2
      (fun e _ => ?_) (fun _ => rfl) (fun _ => rfl)
    simp [commit, hnone]
  next execID hsome =>
  refine settled_update_iff _ hset (updateOne?_eq_some_iff.mp hupd).2
    (fun e hl => ?_) (fun _ => rfl) (fun _ => rfl)
  rw [hsome]
  exact live_mem_update (fun _ => by rfl) (fun _ => rfl) hl

variable {s s' : State} {action : Action}

theorem settled_step (hset : Settled s.db) (href : Referenced s.db)
    (hs : step s action = some s') (hends : action.endsAlone = false) : Settled s'.db := by
  refine settled_of_not_live ?_
  intro r' hr' hend e' he' href' hl
  cases step_executions hs with
  | save hreqs hins =>
    rw [hreqs] at hr'
    rcases (mem_insert? hins).mp he' with rfl | he
    · -- a request cannot refer to an execution that did not exist
      obtain ⟨e, he, hid⟩ := href r' hr' _ href'
      exact (insert?_eq_some hins).1 e he hid
    · exact hset.not_live hr' hend he href' hl
  | quiet hexecs =>
    obtain ⟨e, he, hid, hquiet⟩ := hexecs.origin e' he'
    have hdead : ∀ r ∈ s.db.requests, r.jobState.isTerminal = true →
        r.jobExecutionID ≠ some e'.id :=
      fun r hr hend hr' => hset.not_live hr hend he (hid ▸ hr') (hquiet.2 hl)
    obtain ⟨req, -, -, hnone, hins⟩ | hrows := step_rows hs
    · rcases (mem_insert? hins).mp hr' with rfl | hr
      · simp [hnone] at href'
      · exact hdead r' hr hend href'
    obtain ⟨r, hr, -, hwrite⟩ := hrows.origin r' hr'
    cases hwrite with
    | same | postpone => exact hdead _ hr hend href'
    | marks | approve | requeue => cases hend
    | moves hmoves _ _ _ hboth =>
      rcases hboth (hmoves.target ▸ hend) with halone | hended
      · cases hends.symm.trans halone
      · have hterm := hended e' he' (hmoves.jobExecutionID ▸ href')
        exact false_ne_true (hl.2.symm.trans hterm)
    | reverts _ _ hmoves =>
      rw [hmoves.target, revertState_not_terminal] at hend
      cases hend
    | restart _ hstate =>
      rw [hstate] at hend
      cases hend
    | cancel | reject => cases hends

theorem referenced_step (href : Referenced s.db) (hs : step s action = some s') :
    Referenced s'.db := by
  intro r' hr' id hid
  refine (step_executions hs).kept ?_
  obtain ⟨req, -, -, hnone, hins⟩ | hrows := step_rows hs
  · rcases (mem_insert? hins).mp hr' with rfl | hr
    · simp [hnone] at hid
    · exact href r' hr id hid
  obtain ⟨r, hr, -, hwrite⟩ := hrows.origin r' hr'
  cases hwrite with
  | marks hrow =>
    cases hid
    exact hrow
  | moves hmoves | reverts _ _ hmoves => exact href r hr id (hmoves.jobExecutionID ▸ hid)
  | restart _ _ hnone =>
    rw [hnone] at hid
    cases hid
  | _ => exact href _ hr id hid

theorem settled_step_iff (hset : Settled s.db) (href : Referenced s.db)
    (hs : step s action = some s') : Settled s'.db ↔ EndsBoth s action := by
  cases action with
  | failRequest =>
    obtain ⟨a, ha, hstep⟩ := Option.bind_eq_some_iff.mp hs
    simp only [scheduleStep] at hstep
    split at hstep <;> cases hstep
    by_cases hallow : (revertState a.request).canTransitionTo failed = true
    · rw [updateJobState_settled_iff hset rfl hallow]
      constructor
      · intro hcov b hb _
        cases ha.symm.trans hb
        exact hcov
      · intro hcov
        exact hcov a ha hallow
    · refine iff_of_true ?_ fun b hb hb' => ?_
      · rwa [updateJobState_forbidden hallow]
      · cases ha.symm.trans hb
        exact absurd hb' hallow
  | updateRequest id u =>
    by_cases hnew : u.newState.isTerminal = true
    · cases hs
      by_cases hallow : u.oldState.canTransitionTo u.newState = true
      · rw [updateJobState_settled_iff hset hnew hallow]
        exact ⟨fun hcov _ _ => hcov, fun hcov => hcov hnew hallow⟩
      · refine iff_of_true ?_ fun _ h => absurd h hallow
        rwa [updateJobState_forbidden hallow]
    refine iff_of_true ?_ fun h => absurd h hnew
    exact settled_step hset href hs (eq_false_of_not_eq_true hnew)
  | cancel =>
    simp only [step] at hs
    split at hs <;> cases hs
    exact cancelTransaction_settled_iff hset
  | reject =>
    simp only [step] at hs
    split at hs <;> cases hs
    refine settled_update_iff (fun _ => by rfl) hset rfl (fun e hl => ?_) (fun _ => rfl)
      (fun _ => rfl)
    exact live_mem_update (fun _ => by rfl) (fun _ => rfl) hl
  | _ => exact iff_of_true (settled_step hset href hs rfl) trivial

/-- Ended requests refer to ended executions throughout a run exactly when no step of it ends a
request alone in front of a live execution. -/
theorem settled_iff_endsBoth (as : List Action) :
    system.Along (fun s => Settled s.db) State.initial as ↔
      system.Meets EndsBoth State.initial as := by
  refine TransitionSystem.along_iff_meets (I := fun s : State => Settled s.db ∧ Referenced s.db)
    (fun s h => h.1) ?_ ⟨?_, ?_⟩ as
  · intro s action s' h hs
    have hiff := settled_step_iff h.1 h.2 hs
    exact ⟨hiff.mp, fun hok => ⟨hiff.mpr hok, referenced_step h.2 hs⟩⟩
  · intro r hr
    cases hr
  · intro r hr
    cases hr

/-- The job waits for approval, is approved, and the scheduler then gives up on the request. The
approval has put the request back into the queue with its execution still open. -/
def failAfterApproval : List Action :=
  let admin := QueryContext.newQueryContext none
  let waiting : JobRequest :=
    { submitted "r1" with
      jobState := manualApprovalRequired
      jobExecutionID := some "e1"
      currentTask := "deploy" }
  .submit (submitted "r1") :: scheduleUpToSave "r1" "e1" ++
    [.markReady 0, .sendLaunchEvent true, .setExecuting "e1" 0, .requireApproval "e1" "deploy" 0,
      .read admin "r1", .approve admin waiting "deploy" "t1" "boss" "" 0,
      .nextSchedulable ["r1"] 0, .pick, .scheduleFailed, .failRequest {}]

theorem stranded_after_approval : ¬ ∀ s, system.Reachable s → Settled s.db := by
  intro h
  obtain ⟨s, hreach, hstranded⟩ := system.exists_reachableWith (fun _ _ => True)
    (fun s => ¬ Settled s.db) failAfterApproval rfl (by decide)
  exact hstranded (h s hreach)

end Formicary.Lifecycle

import Formicary.Model.JobWaiter
import Formicary.Verification.Lifecycle.SingleExecution

/-! # The end of the forked jobs

What a poll has recorded, and when it reports that all jobs have ended. -/

namespace Formicary.Waiting

open JobWaiter

def Ended (w : Waiting) (id : String) : Prop :=
  (w.children id).jobState.isTerminal = true

theorem pollIDs_spec (w : Waiting) (failing : String → Option String) (ids : List String)
    (requests : FinMap String JobRequest) :
    let polled := pollIDs (w.getJobRequest failing) ids requests
    (∀ id ∈ polled.1, id ∈ requests ∨ id ∈ ids ∧ w.Ended id) ∧
      (polled.2 = none → ∀ id, id ∈ requests ∨ id ∈ ids ∧ w.Ended id → id ∈ polled.1) ∧
      ((∀ id, failing id = none) → polled.2 = none) := by
  induction ids generalizing requests with
  | nil => simp [pollIDs]
  | cons first ids ih =>
    -- each iteration records what it finds ended
    have hnext : ∀ requests' : FinMap String JobRequest,
        (∀ id, id ∈ requests' ↔ id ∈ requests ∨ id = first ∧ w.Ended id) →
        ∀ id, (id ∈ requests ∨ id ∈ first :: ids ∧ w.Ended id) ↔
          id ∈ requests' ∨ id ∈ ids ∧ w.Ended id := by
      intro requests' h id
      rw [h, List.mem_cons]
      tauto
    unfold pollIDs
    split
    · next hmem =>
      simp only [hnext requests fun id => by grind]
      exact ih requests
    split
    · next err hget =>
      refine ⟨fun id => .inl, nofun, fun hread => ?_⟩
      simp [getJobRequest, hread] at hget
    · next req hget =>
      have hreq : req = w.children first := by
        unfold getJobRequest at hget
        cases hfail : failing first <;> rw [hfail] at hget <;> cases hget
        rfl
      subst hreq
      have hrecords : ∀ id, (id ∈ if (w.children first).jobState.isTerminal then
          requests.insert first (w.children first) else requests) ↔
            id ∈ requests ∨ id = first ∧ w.Ended id := by
        intro id
        split <;> simp [AList.mem_insert] <;> grind [Ended]
      simp only [hnext _ hrecords]
      exact ih _

/-- What is recorded was awaited and has ended. -/
def Recorded (w : Waiting) : Prop :=
  ∀ id ∈ w.waiter.requests, id ∈ w.waiter.requestIDs ∧ w.Ended id

variable {w w' : Waiting}

theorem recorded_step {action : Action} (h : w.Recorded) (hs : w.step action = some w') :
    w'.Recorded := by
  cases action with
  | child id req =>
    simp only [step] at hs
    split at hs <;> cases hs
    next hstays =>
    intro id' hid'
    obtain ⟨hmem, hend⟩ := h id' hid'
    refine ⟨hmem, ?_⟩
    by_cases hid : id' = id
    · subst hid
      simpa [Ended] using hstays hend
    · simpa [Ended, hid] using hend
  | event | wake =>
    cases hs
    exact h
  | poll ctxErr failing =>
    cases hs
    cases ctxErr with
    | some => exact h
    | none =>
      intro id hid
      exact ((pollIDs_spec w failing _ _).1 id hid).elim (h id) fun h => h

/-- If no job is awaited twice, then a poll without an error reports whether all jobs have ended. -/
theorem poll_exact {awaitForkedTasks : List String} {vars : Variables}
    (h : (system awaitForkedTasks vars).Reachable w) (hnodup : w.waiter.requestIDs.Nodup) :
    (∀ ctxErr failing done, (w.waiter.poll ctxErr (w.getJobRequest failing)).2 = .ok done →
        (done = true ↔ ∀ id ∈ w.waiter.requestIDs, w.Ended id)) ∧
      ∃ done, (w.waiter.poll none (w.getJobRequest fun _ => none)).2 = .ok done := by
  have hrec : w.Recorded := by
    clear hnodup
    induction h with
    | @init w hw =>
      intro id hid
      obtain ⟨⟨ids, requests, notify⟩, children⟩ := w
      simp only [system, newJobWaiter] at hw
      cases hids : buildJobIDs awaitForkedTasks vars <;> rw [hids] at hw <;> cases hw
      simp at hid
    | step _ _ hs ih => exact recorded_step ih hs
  constructor
  · intro ctxErr failing done hdone
    cases ctxErr with
    | some => cases hdone
    | none =>
      obtain ⟨hsub, hall, -⟩ := pollIDs_spec w failing w.waiter.requestIDs w.waiter.requests
      simp only [poll] at hdone
      generalize pollIDs _ _ _ = polled at *
      obtain ⟨requests, err⟩ := polled
      cases err with
      | some => cases hdone
      | none =>
        cases hdone
        have hkeys : ∀ id ∈ requests.keys, id ∈ w.waiter.requestIDs ∧ w.Ended id :=
          fun id hid => (hsub id (AList.mem_keys.mpr hid)).elim (hrec id) fun h => h
        have hfew := List.subperm_of_subset requests.keys_nodup fun id hid => (hkeys id hid).1
        rw [completed, beq_iff_eq, FinMap.size_eq_length_keys]
        constructor
        · intro hlen id hid
          have hperm := hfew.perm_of_length_le hlen.ge
          exact (hkeys id (hperm.mem_iff.mpr hid)).2
        · intro hend
          have hmany := List.subperm_of_subset hnodup fun id hid =>
            AList.mem_keys.mp (hall rfl id (.inr ⟨hid, hend id hid⟩))
          exact le_antisymm hfew.length_le hmany.length_le
  · have hread := (pollIDs_spec w (fun _ => none) w.waiter.requestIDs w.waiter.requests).2.2
    simp only [poll, hread fun _ => rfl]
    exact ⟨_, rfl⟩

def forked (taskTypes : List String) : Variables :=
  taskTypes.map fun taskType => (taskType ++ ".ForkedJobID", ⟨.string taskType, false⟩)

/-- All jobs have ended, and none has been polled. -/
def awaiting (ids : List String) : Waiting :=
  ⟨⟨ids, ∅, false⟩, fun id => { Lifecycle.submitted id with jobState := .completed }⟩

theorem poll_two_jobs : ∃ w, (system ["build", "test"] (forked ["build", "test"])).Reachable w ∧
    ∃ done, (w.waiter.poll none (w.getJobRequest fun _ => none)).2 = .ok done ∧ done = true := by
  have hreach : (system ["build", "test"] (forked ["build", "test"])).Reachable
      (awaiting ["build", "test"]) := .init rfl
  obtain ⟨hexact, done, hdone⟩ := poll_exact hreach (by decide)
  exact ⟨_, hreach, done, hdone, (hexact _ _ _ hdone).mpr fun _ _ => rfl⟩

/-- A task that is named twice. Its job has ended, and no poll reports it. -/
theorem poll_same_job : ∃ w, (system ["build", "build"] (forked ["build"])).Reachable w ∧
    (∀ id ∈ w.waiter.requestIDs, w.Ended id) ∧
      (w.waiter.poll none (w.getJobRequest fun _ => none)).2 = .ok false :=
  ⟨awaiting ["build", "build"], .init rfl, fun _ _ => rfl, rfl⟩

end Formicary.Waiting

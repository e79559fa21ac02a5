import Formicary.Verification.Resource.Index

/-! # Container events and their index

The events are stored by the name of the container, the index lists those names by request. -/

namespace Formicary.Resource

open FinMap Manager State Option

namespace State

/-- An event of the request is stored under the key. -/
def Stored (s : State) (requestID key : String) : Prop :=
  ∃ cnt ∈ s.containersEvents.lookup key, cnt.requestID = requestID

/-- The key is listed under the request. -/
def KeyListed (s : State) (requestID key : String) : Prop :=
  key ∈ (s.containersEventKeysByRequestID.lookup requestID).getD ∅

variable {s : State} {r key : String}

instance : Decidable (s.Stored r key) :=
  decidable_of_iff ((s.containersEvents.lookup key).any fun cnt => cnt.requestID = r) (by
    simp [Stored, Option.any_eq_true])

theorem Stored.unique {r' : String} (h : s.Stored r key) (h' : s.Stored r' key) : r = r' := by
  obtain ⟨cnt, hcnt, rfl⟩ := h
  obtain ⟨cnt', hcnt', rfl⟩ := h'
  rw [mem_unique hcnt hcnt']

theorem stored_updateContainer (cnt : ContainerLifecycleEvent) :
    (s.updateContainer cnt).Stored r key ↔
      if key = cnt.key then cnt.done = false ∧ r = cnt.requestID else s.Stored r key := by
  cases hdone : cnt.done <;> by_cases hkey : key = cnt.key <;>
    simp [Stored, updateContainer, hdone, hkey, lookup_insert_eq, lookup_erase_eq, eq_comm]

theorem keyListed_updateContainer (cnt : ContainerLifecycleEvent) :
    (s.updateContainer cnt).KeyListed r key ↔
      if key = cnt.key ∧ r = cnt.requestID then cnt.done = false else s.KeyListed r key := by
  by_cases hr : r = cnt.requestID
  · subst hr
    cases hdone : cnt.done <;> by_cases hkey : key = cnt.key <;>
      simp [KeyListed, updateContainer, hdone, hkey, AList.mem_erase]
  · cases hdone : cnt.done <;> simp [KeyListed, updateContainer, hdone, hr]

theorem lookup_foldl_erase {β : Type} (keys : List String) (events : FinMap String β) :
    (keys.foldl (fun events k => events.erase k) events).lookup key =
      if key ∈ keys then none else events.lookup key := by
  induction keys generalizing events with
  | nil => simp
  | cons k keys ih =>
    rw [List.foldl_cons, ih, lookup_erase_eq]
    by_cases hkey : key = k <;> simp [hkey]

theorem stored_releaseJob {requestID : String} (hants : s.antsByRequest.lookup requestID ≠ none) :
    (s.releaseJob requestID).Stored r key ↔ ¬ s.KeyListed requestID key ∧ s.Stored r key := by
  obtain ⟨ants, hants⟩ := ne_none_iff_exists'.mp hants
  cases hkeys : s.containersEventKeysByRequestID.lookup requestID with
  | none => simp [Stored, KeyListed, releaseJob, hants, hkeys]
  | some keys =>
    by_cases hkey : key ∈ keys <;>
      simp [Stored, KeyListed, releaseJob, hants, hkeys, lookup_foldl_erase, hkey, ← AList.mem_keys]

theorem keyListed_releaseJob {requestID : String}
    (hants : s.antsByRequest.lookup requestID ≠ none) :
    (s.releaseJob requestID).KeyListed r key ↔ r ≠ requestID ∧ s.KeyListed r key := by
  obtain ⟨ants, hants⟩ := ne_none_iff_exists'.mp hants
  by_cases hr : r = requestID <;> simp [KeyListed, releaseJob, hants, lookup_erase_eq, hr]

end State

/-- An event is stored exactly when its key is listed under its request. -/
def Consistent (s : State) : Prop :=
  ∀ requestID key, s.Stored requestID key ↔ s.KeyListed requestID key

/-- What an action leaves behind: a consistent state, and after the release of a job no container
event of its request. -/
def Bookkept (cfg : Config) (m : Manager) (action : Action) : Prop :=
  ∀ m' ∈ m.step cfg action, Consistent m'.state ∧
    ∀ requestID, action = .releaseJob requestID → ∀ key, ¬ m'.state.Stored requestID key

/-- A container keeps its request, and a job is only released while the request has an ant or no
container event. -/
def Tidy (m : Manager) : Action → Prop
  | .updateContainer cnt => ∀ requestID, m.state.Stored requestID cnt.key →
      requestID = cnt.requestID
  | .releaseJob requestID => m.state.antsByRequest.lookup requestID = none →
      ∀ key, ¬ m.state.Stored requestID key
  | _ => True

variable {cfg : Config} {m m' : Manager} {action : Action} {s s' : State}

theorem consistent_updateContainer_iff (h : Consistent s) (cnt : ContainerLifecycleEvent) :
    Consistent (s.updateContainer cnt) ↔
      ∀ requestID, s.Stored requestID cnt.key → requestID = cnt.requestID := by
  constructor
  · intro hc r hr
    have hkey := hc r cnt.key
    rw [stored_updateContainer, keyListed_updateContainer, if_pos rfl] at hkey
    by_contra hne
    simp [hne, (h r cnt.key).mp hr] at hkey
  · intro hsame r key
    rw [stored_updateContainer, keyListed_updateContainer, ← h]
    by_cases hkey : key = cnt.key
    · subst hkey
      by_cases hr : r = cnt.requestID
      · simp [hr]
      · simpa [hr] using fun hstor => hr (hsame r hstor)
    · simp [hkey]

theorem bookkept_releaseJob_iff (h : Consistent s) (requestID : String) :
    (Consistent (s.releaseJob requestID) ∧ ∀ key, ¬ (s.releaseJob requestID).Stored requestID key) ↔
      (s.antsByRequest.lookup requestID = none → ∀ key, ¬ s.Stored requestID key) := by
  by_cases hants : s.antsByRequest.lookup requestID = none
  · have hsame : s.releaseJob requestID = s := by simp [releaseJob, hants]
    simp [hsame, h, hants]
  refine iff_of_true ⟨fun r key => ?_, fun key => ?_⟩ fun hnone => absurd hnone hants
  · rw [stored_releaseJob hants, keyListed_releaseJob hants, ← h, ← h]
    constructor
    · exact fun ⟨hother, hr⟩ => ⟨fun he => hother (he ▸ hr), hr⟩
    · exact fun ⟨hne, hr⟩ => ⟨fun hother => hne (hr.unique hother), hr⟩
  · rw [stored_releaseJob hants, ← h]
    exact fun ⟨hother, hr⟩ => hother hr

theorem Consistent.of_eq (h : Consistent s) (hevs : s'.containersEvents = s.containersEvents)
    (hkeys : s'.containersEventKeysByRequestID = s.containersEventKeysByRequestID) :
    Consistent s' := by
  intro r key
  simpa only [State.Stored, State.KeyListed, hevs, hkeys] using h r key

theorem consistent_release (h : Consistent s) (reservation : AntReservation) :
    Consistent (release s reservation).1 := by
  unfold release State.release
  dsimp only
  repeat' split
  all_goals exact h.of_eq rfl rfl

theorem bookkept_step_iff (h : Consistent m.state) (he : m.step cfg action = some m') :
    Consistent m'.state ∧ (∀ r, action = .releaseJob r → ∀ key, ¬ m'.state.Stored r key) ↔
      Tidy m action := by
  cases action with
  | updateContainer cnt =>
    cases he
    simpa [Tidy] using consistent_updateContainer_iff h cnt
  | releaseJob requestID =>
    cases he
    simp only [Action.releaseJob.injEq, forall_eq']
    exact bookkept_releaseJob_iff h requestID
  | reserve =>
    obtain ⟨result, hres, rfl⟩ := map_eq_some_iff.mp he
    have hstate : Consistent result.1 := by
      rcases doReserve_state hres with hsame | ⟨reservation, -, hadded⟩
      · rwa [hsame]
      · rw [hadded]
        exact h.of_eq rfl rfl
    exact iff_of_true ⟨hstate, by simp⟩ trivial
  | release reservation =>
    cases he
    exact iff_of_true ⟨consistent_release h reservation, by simp⟩ trivial
  | releaseStaleAllocation =>
    simp only [step] at he
    split at he <;> cases he
    exact iff_of_true ⟨consistent_release h _, by simp⟩ trivial
  | _ =>
    simp only [step] at he
    repeat' split at he
    all_goals cases he
    all_goals exact iff_of_true ⟨h.of_eq rfl rfl, by simp⟩ trivial

/-- From the start, the containers of a run are kept consistently and go with their job exactly if
no container changes its request and no job without ants is released while it has containers. -/
theorem containers_bookkept_iff (cfg : Config) (actions : List Action) :
    (system cfg).Meets (Bookkept cfg) new actions ↔ (system cfg).Meets Tidy new actions := by
  have hnew : Consistent new.state := by
    intro r key
    simp [new, newState, State.Stored, State.KeyListed]
  refine TransitionSystem.meets_iff_meets (I := fun m => Consistent m.state)
    (fun m action m' h he => ⟨⟨?_, ?_⟩, fun hok => (hok m' he).1⟩) hnew
  · exact fun hok => (bookkept_step_iff h he).mp (hok m' he)
  · exact fun hok m' he => (bookkept_step_iff h he).mpr hok

theorem container_outlives_job : ∃ m : Manager, m.state.Stored "r1" "DOCKER:c" ∧
    (system ⟨60, 60⟩).runWith (fun _ _ => True) new
      [.updateContainer ⟨"DOCKER:c", "r1", false⟩, .releaseJob "r1"] = some m := by
  refine ⟨_, ?_, rfl⟩
  decide

end Formicary.Resource

import Formicary.Verification.Resource.Index

/-! # The requests that hold an ant

What the operations of the resource manager add to the allocations, and what they take away. -/

namespace Formicary.Resource

variable {timeout now : Time} {choice : ℕ} {requestID : String}

namespace State

variable {s s' : State} {a r : String}

def holdsAny (s : State) (requestID : String) : Bool :=
  s.allocationsByAnt.keys.any fun antID => s.holds antID requestID

theorem holdsAny_iff : s.holdsAny r = true ↔ ∃ antID, s.holds antID r = true := by
  unfold holdsAny
  rw [List.any_eq_true]
  constructor
  · rintro ⟨antID, -, hholds⟩
    exact ⟨antID, hholds⟩
  · rintro ⟨antID, hholds⟩
    exact ⟨antID, mem_keys_of_holds hholds, hholds⟩

theorem holds_doReserve {call : ReserveCall}
    {result : State × Except String AntReservation} (hr : r ≠ call.requestID)
    (he : doReserve s call timeout now choice = some result) :
    result.1.holds a r = s.holds a r := by
  rcases doReserve_state he with hsame | ⟨reservation, -, hadded⟩
  · rw [hsame]
  · rw [hadded, holds_reserved, decide_eq_false hr, Bool.false_and, Bool.or_false]

theorem not_holdsAny_releaseJob (h : Indexed s) (requestID : String) :
    (s.releaseJob requestID).holdsAny requestID = false := by
  refine Bool.eq_false_of_not_eq_true fun hany => ?_
  obtain ⟨antID, hholds⟩ := holdsAny_iff.mp hany
  rw [indexed_iff_releaseJob.mp h requestID antID] at hholds
  cases hholds

theorem holds_of_releaseJob
    (h : (s.releaseJob requestID).holds a r = true) : s.holds a r = true := by
  rw [holds_releaseJob] at h
  exact ((Bool.and_eq_true _ _).mp h).1

theorem holds_of_release {reservation : AntReservation}
    (h : (Resource.release s reservation).1.holds a r = true) : s.holds a r = true := by
  unfold Resource.release at h
  split at h
  · exact h
  unfold State.release at h
  split at h
  · exact h
  next allocations hall =>
  split at h
  · exact h
  next allocation halloc =>
  -- what is left on the ant was there before
  have hleft : ∀ left : FinMap String AntAllocation,
      ((left.lookup r).isSome = true → (allocations.lookup r).isSome = true) →
      (if a = reservation.antID then (left.lookup r).isSome else s.holds a r) = true →
      s.holds a r = true := by
    intro left hleft h
    by_cases ha : a = reservation.antID
    · subst ha
      rw [if_pos rfl] at h
      rw [holds_eq_isSome hall]
      exact hleft h
    · rwa [if_neg ha] at h
  dsimp only at h
  split at h
  · rw [holds_insert] at h
    refine hleft _ (fun h => ?_) h
    rw [FinMap.lookup_erase_eq] at h
    split at h
    · cases h
    · exact h
  · rw [holds_insert reservation.antID _ s.antsByRequest] at h
    refine hleft _ (fun h => ?_) h
    rw [FinMap.lookup_insert_eq] at h
    split at h
    · next hr => rw [hr, halloc]; rfl
    · exact h

theorem holds_of_removeRegistration {antID : String}
    (h : (s.removeRegistration antID).holds a r = true) : s.holds a r = true := by
  unfold removeRegistration holds at h
  rw [FinMap.lookup_erase_eq] at h
  by_cases ha : a = antID
  · simp [ha] at h
  · rwa [if_neg ha] at h

end State

open State

/-- What reserving the ants of a job leaves: nothing changes for other requests, and if some task
finds no ant the request holds none. -/
structure ReservedFor (requestID : String) (s : State)
    (result : State × Except String (FinMap String AntReservation)) : Prop where
  indexed : Indexed result.1
  others : ∀ a r, r ≠ requestID → result.1.holds a r = s.holds a r
  failed : ∀ err, result.2 = .error err → result.1.holdsAny requestID = false

theorem doReserveJobResources_reservedFor {s : State}
    {reservations : FinMap String AntReservation} {tasks : List TaskDefinition} {choices : List ℕ}
    {result : State × Except String (FinMap String AntReservation)} (h : Indexed s)
    (he : doReserveJobResources requestID false timeout now s reservations tasks choices =
      some result) : ReservedFor requestID s result := by
  induction tasks generalizing s reservations choices with
  | nil =>
    cases he
    exact ⟨h, fun _ _ _ => rfl, nofun⟩
  | cons task tasks ih =>
    cases choices with
    | nil => cases he
    | cons =>
      rw [doReserveJobResources] at he
      split at he
      · cases he
      · next s₁ alloc hone =>
        obtain ⟨hind, hoth, hfail⟩ := ih (indexed_reserve hone h) he
        exact ⟨hind, fun a r hr => (hoth a r hr).trans (holds_doReserve hr hone), hfail⟩
      next s₁ err hone =>
      cases he
      have hind := indexed_reserve hone h
      refine ⟨indexed_releaseJob hind requestID, ?_,
        fun _ _ => not_holdsAny_releaseJob hind requestID⟩
      intro a r hr
      rw [if_neg Bool.false_ne_true, holds_releaseJob, decide_eq_false hr, Bool.false_and,
        Bool.not_false, Bool.and_true]
      exact holds_doReserve hr hone

theorem validateAntAllocation_spec {s : State} {td : TaskDefinition} {allocation : AntReservation}
    {result : State × Except String AntReservation} (h : Indexed s) (hsole : s.Sole allocation)
    (he : validateAntAllocation s requestID td allocation timeout now choice = some result) :
    Indexed result.1 ∧ ∀ a r, r ≠ requestID → result.1.holds a r = true → s.holds a r = true := by
  unfold validateAntAllocation at he
  split at he
  · refine ⟨indexed_reserve he h, fun a r hr hholds => ?_⟩
    rwa [holds_doReserve hr he] at hholds
  split at he
  · cases he
    exact ⟨h, fun _ _ _ hholds => hholds⟩
  refine ⟨indexed_reserve he ((indexed_release_iff h allocation).mpr hsole), ?_⟩
  intro a r hr hholds
  rw [holds_doReserve hr he] at hholds
  exact holds_of_release hholds

theorem Manager.holds_of_step {cfg : Config} {m m' : Manager} {action : Action}
    (he : m.step cfg action = some m') {a r : String} (hholds : m'.state.holds a r = true) :
    m.state.holds a r = true ∨ (∃ call now choice, action = .reserve call now choice) ∨
      ∃ registration now, action = .register registration now ∧
        ∃ alloc ∈ registration.allocations, alloc.jobRequestID = r := by
  cases action with
  | register registration now =>
    cases he
    rw [holds_addRegistration, Bool.or_eq_true] at hholds
    rcases hholds with hold | hnew
    · exact .inl hold
    obtain ⟨alloc, halloc, hr⟩ := List.any_eq_true.mp ((Bool.and_eq_true _ _).mp hnew).2
    exact .inr (.inr ⟨registration, now, rfl, alloc, halloc, beq_iff_eq.mp hr⟩)
  | reserve call now choice => exact .inr (.inl ⟨call, now, choice, rfl⟩)
  | unregister =>
    cases he
    exact .inl (holds_of_removeRegistration hholds)
  | release =>
    cases he
    exact .inl (holds_of_release hholds)
  | releaseJob =>
    cases he
    exact .inl (holds_of_releaseJob hholds)
  | updateContainer =>
    cases he
    refine .inl ?_
    unfold State.updateContainer at hholds
    split at hholds <;> exact hholds
  | listStaleAnts | listStaleAllocations =>
    obtain ⟨-, he⟩ := Option.ite_none_right_eq_some.mp he
    cases he
    exact .inl hholds
  | removeStaleAnt =>
    unfold Manager.step at he
    dsimp only at he
    split at he <;> cases he
    exact .inl (holds_of_removeRegistration hholds)
  | releaseStaleAllocation =>
    unfold Manager.step at he
    dsimp only at he
    split at he <;> cases he
    exact .inl (holds_of_release hholds)

end Formicary.Resource

import Formicary.Model.ResourceManager

/-! # Allocations and their index

An allocation that the index of its request does not list is not freed with the job. -/

namespace Formicary.Resource

open FinMap Manager State AList

def State.holds (s : State) (antID requestID : String) : Bool :=
  ((s.allocationsByAnt.lookup antID).bind fun allocations => allocations.lookup requestID).isSome

def State.listed (s : State) (antID requestID : String) : Bool :=
  (s.antsByRequest.lookup requestID).any fun ants => decide (antID ∈ ants)

def Indexed (s : State) : Prop :=
  ∀ antID requestID, s.holds antID requestID = true → s.listed antID requestID = true

/-- Allocations are listed, so that releasing a job frees all of them. -/
def NoLeak (m : Manager) : Prop :=
  Indexed m.state ∧ ∀ requestID antID, (m.state.releaseJob requestID).holds antID requestID = false

def State.drains (s : State) (reservation : AntReservation) : Bool :=
  (s.antRegistrations.lookup reservation.antID).isSome &&
    ((s.allocationsByAnt.lookup reservation.antID).bind fun allocations =>
      allocations.lookup reservation.jobRequestID).any fun allocation =>
        size (allocation.taskTypes.erase reservation.taskType) == 0

def State.Sole (s : State) (reservation : AntReservation) : Prop :=
  s.drains reservation = true → ∀ antID ∈ s.allocationsByAnt.keys,
    antID ≠ reservation.antID → s.holds antID reservation.jobRequestID = false

instance (s : State) (reservation : AntReservation) : Decidable (s.Sole reservation) :=
  inferInstanceAs (Decidable (_ → _))

def Orderly (m : Manager) : Action → Prop
  | .register registration _ =>
    ∀ alloc ∈ registration.allocations, m.state.listed registration.antID alloc.jobRequestID = true
  | .release reservation => m.state.Sole reservation
  | .releaseStaleAllocation => ∀ reservation ∈ m.staleReservations.head?, m.state.Sole reservation
  | _ => True

instance (m : Manager) (action : Action) : Decidable (Orderly m action) := by
  cases action <;> dsimp only [Orderly] <;> infer_instance

namespace State

variable {s : State} {a r : String}

theorem holds_insert (antID : String) (allocations : FinMap String AntAllocation)
    (index : FinMap String (FinSet String)) :
    holds { s with allocationsByAnt := s.allocationsByAnt.insert antID allocations,
                         antsByRequest := index } a r =
      if a = antID then (allocations.lookup r).isSome else s.holds a r := by
  unfold holds
  rw [lookup_insert_eq]
  split <;> rfl

theorem listed_insert (requestID : String) (ants : FinSet String)
    (allocations : FinMap String (FinMap String AntAllocation)) :
    listed { s with antsByRequest := s.antsByRequest.insert requestID ants,
                          allocationsByAnt := allocations } a r =
      if r = requestID then decide (a ∈ ants) else s.listed a r := by
  unfold listed
  rw [lookup_insert_eq]
  split <;> rfl

theorem listed_erase (requestID : String)
    (allocations : FinMap String (FinMap String AntAllocation)) :
    listed { s with antsByRequest := s.antsByRequest.erase requestID,
                          allocationsByAnt := allocations } a r =
      if r = requestID then false else s.listed a r := by
  unfold listed
  rw [lookup_erase_eq]
  split <;> rfl

theorem mem_keys_of_holds (h : s.holds a r = true) : a ∈ s.allocationsByAnt.keys := by
  unfold holds at h
  cases ha : s.allocationsByAnt.lookup a with
  | none => simp [ha] at h
  | some =>
    rw [← mem_keys, ← lookup_isSome, ha]
    rfl

def reserved (s : State) (requestID taskType : String) (reservation : AntReservation)
    (now : Time) : State :=
  (s.addAllocationsByAnt requestID taskType reservation now).1.addAntsByRequest requestID
    reservation.antID

section

variable (requestID taskType : String) (reservation : AntReservation) (now : Time)

theorem holds_reserved : (s.reserved requestID taskType reservation now).holds a r =
      (s.holds a r || decide (r = requestID) && decide (a = reservation.antID)) := by
  unfold reserved addAntsByRequest addAllocationsByAnt
  dsimp only
  rw [holds_insert]
  by_cases ha : a = reservation.antID
  · subst ha
    rw [if_pos rfl, lookup_insert_eq, decide_eq_true rfl, Bool.and_true]
    by_cases hr : r = requestID
    · simp [hr]
    rw [if_neg hr, decide_eq_false hr, Bool.or_false]
    unfold holds
    cases s.allocationsByAnt.lookup reservation.antID <;> rfl
  · rw [if_neg ha, decide_eq_false ha, Bool.and_false, Bool.or_false]

theorem listed_reserved : (s.reserved requestID taskType reservation now).listed a r =
      (s.listed a r || decide (r = requestID) && decide (a = reservation.antID)) := by
  unfold reserved addAntsByRequest addAllocationsByAnt
  dsimp only
  rw [listed_insert]
  by_cases hr : r = requestID
  · subst hr
    rw [if_pos rfl, decide_eq_true rfl, Bool.true_and, Bool.eq_iff_iff, decide_eq_true_iff,
      mem_insert]
    unfold listed
    cases s.antsByRequest.lookup r <;> simp [or_comm]
  · rw [if_neg hr, decide_eq_false hr, Bool.false_and, Bool.or_false]

end

theorem indexed_reserved (h : Indexed s) (requestID taskType : String)
    (reservation : AntReservation) (now : Time) :
    Indexed (s.reserved requestID taskType reservation now) := by
  intro a r hholds
  rw [holds_reserved, Bool.or_eq_true] at hholds
  rw [listed_reserved, Bool.or_eq_true]
  exact hholds.imp_left (h a r)

def Supports (s : State) (call : ReserveCall) (timeout now : Time) (antID : String) : Prop :=
  ∃ key registration, s.antRegistrations.lookup key = some registration ∧
    registration.supports call.method call.tags timeout now = true ∧ registration.antID = antID

variable {call : ReserveCall} {timeout now : Time}

theorem supports_of_mem_candidates {methodAnts ants : FinSet String} {reservation : AntReservation}
    (h : reservation ∈ s.candidates call.requestID call.taskType call.method call.tags methodAnts
      ants timeout now) :
    s.Supports call timeout now reservation.antID ∧
      reservation.jobRequestID = call.requestID ∧ reservation.taskType = call.taskType := by
  obtain ⟨key, -, hkey⟩ := List.mem_filterMap.mp h
  split at hkey
  · cases hkey
  split at hkey
  · cases hkey
  next registration hlook =>
  split at hkey
  · cases hkey
  split at hkey <;> cases hkey
  next hsup =>
  exact ⟨⟨key, registration, hlook, hsup, rfl⟩, rfl, rfl⟩

variable {choice : ℕ} {result : State × Except String AntReservation}

theorem reserve_cases (he : s.reserve call timeout now choice = some result) :
    (∃ err, result = (s, .error err)) ∨ (call.dryRun = true ∧ ∃ reservation : AntReservation,
      s.Supports call timeout now reservation.antID ∧ result = (s, .ok reservation)) ∨
    (call.dryRun = false ∧ ∃ reservation : AntReservation,
      s.Supports call timeout now reservation.antID ∧
      reservation.jobRequestID = call.requestID ∧ reservation.taskType = call.taskType ∧
      result = (s.reserved call.requestID call.taskType reservation now, .ok reservation)) := by
  unfold reserve at he
  dsimp only at he
  split at he
  · cases he
    exact .inl ⟨_, rfl⟩
  split at he
  · cases he
    exact .inl ⟨_, rfl⟩
  next ants _ =>
  split at he
  · cases he
    exact .inl ⟨_, rfl⟩
  split at he
  · cases he
  next reservation hch =>
  obtain ⟨hsup, hreq, htask⟩ :=
    supports_of_mem_candidates (List.mem_of_getElem? hch)
  generalize (s.candidates call.requestID call.taskType call.method call.tags
    ((s.antByMethod.lookup call.method).getD ∅) ants timeout now).length = total at he
  split at he
  · next hdry =>
    cases he
    exact .inr (.inl ⟨hdry, { reservation with totalReservations := total }, hsup, rfl⟩)
  next hdry =>
  split at he <;> cases he
  exact .inr (.inr ⟨Bool.eq_false_of_not_eq_true hdry,
    (s.addAllocationsByAnt call.requestID call.taskType
      { reservation with totalReservations := total } now).2,
    hsup, hreq, htask, rfl⟩)

section Reserve

variable (he : doReserve s call timeout now choice = some result)
include he

theorem doReserve_eq : result = (s, .error "method not specified") ∨
      s.reserve call timeout now choice = some result := by
  unfold doReserve at he
  split at he
  · cases he
    exact .inl rfl
  · exact .inr he

theorem doReserve_state :
    result.1 = s ∨ ∃ reservation, s.Supports call timeout now reservation.antID ∧
      result.1 = s.reserved call.requestID call.taskType reservation now := by
  rcases doReserve_eq he with rfl | he
  · exact .inl rfl
  rcases reserve_cases he with ⟨err, rfl⟩ | ⟨-, reservation, -, rfl⟩ |
    ⟨-, reservation, hsup, -, -, rfl⟩
  · exact .inl rfl
  · exact .inl rfl
  · exact .inr ⟨reservation, hsup, rfl⟩

theorem indexed_reserve (h : Indexed s) : Indexed result.1 := by
  rcases doReserve_state he with hsame | ⟨reservation, -, hadded⟩
  · rwa [hsame]
  rw [hadded]
  exact indexed_reserved h call.requestID call.taskType reservation now

end Reserve

theorem indexed_removeRegistration (h : Indexed s) (antID : String) :
    Indexed (s.removeRegistration antID) := by
  intro a r hholds
  unfold removeRegistration holds at hholds
  rw [lookup_erase_eq] at hholds
  by_cases ha : a = antID
  · simp [ha] at hholds
  rw [if_neg ha] at hholds
  have hlist := h a r hholds
  unfold listed at hlist
  unfold removeRegistration listed
  rw [lookup_mapValues]
  cases hants : s.antsByRequest.lookup r with
  | none => simp [hants] at hlist
  | some => simpa [hants, mem_erase, ha] using hlist

theorem holds_releaseJob (requestID : String) : (s.releaseJob requestID).holds a r =
      (s.holds a r && !(decide (r = requestID) && s.listed a requestID)) := by
  unfold releaseJob listed
  cases hants : s.antsByRequest.lookup requestID with
  | none => simp
  | some ants =>
    unfold holds
    rw [lookup_mapValues]
    cases hall : s.allocationsByAnt.lookup a with
    | none => simp
    | some =>
      by_cases ha : a ∈ ants
      · by_cases hr : r = requestID <;> simp [ha, hr, lookup_erase_eq]
      · simp [ha]

theorem indexed_iff_releaseJob :
    Indexed s ↔ ∀ requestID antID, (s.releaseJob requestID).holds antID requestID = false := by
  constructor
  · intro h requestID antID
    rw [holds_releaseJob]
    cases hholds : s.holds antID requestID with
    | false => rfl
    | true => simp [h antID requestID hholds]
  · intro h antID requestID hholds
    have hfreed := h requestID antID
    rw [holds_releaseJob, hholds] at hfreed
    simpa using hfreed

theorem indexed_releaseJob (h : Indexed s) (requestID : String) :
    Indexed (s.releaseJob requestID) := by
  intro a r hholds
  rw [holds_releaseJob, Bool.and_eq_true, Bool.not_eq_true', Bool.and_eq_false_iff] at hholds
  have hlist := h a r hholds.1
  have hr : r ≠ requestID := by
    rintro rfl
    simp [hlist] at hholds
  unfold releaseJob
  cases s.antsByRequest.lookup requestID with
  | none => exact hlist
  | some =>
    unfold listed at hlist ⊢
    rwa [lookup_erase_eq, if_neg hr]

variable {antID : String} {allocations : FinMap String AntAllocation}

theorem holds_eq_isSome (h : s.allocationsByAnt.lookup antID = some allocations) :
    s.holds antID r = (allocations.lookup r).isSome := by
  simp [holds, h]

section

variable (h : Indexed s) (hall : s.allocationsByAnt.lookup antID = some allocations)
include h hall

theorem indexed_drained_iff {requestID : String} :
    Indexed { s with
      allocationsByAnt := s.allocationsByAnt.insert antID (allocations.erase requestID),
      antsByRequest := s.antsByRequest.erase requestID } ↔
      ∀ a ∈ s.allocationsByAnt.keys, a ≠ antID → s.holds a requestID = false := by
  constructor
  · intro hind a _ ha
    by_contra hholds
    have hlist := hind a requestID (by
      rw [holds_insert, if_neg ha]
      simpa using hholds)
    rw [listed_erase, if_pos rfl] at hlist
    cases hlist
  · intro hsole a r hholds
    rw [holds_insert] at hholds
    rw [listed_erase]
    by_cases hr : r = requestID
    · subst hr
      by_cases ha : a = antID
      · rw [if_pos ha, lookup_erase] at hholds
        cases hholds
      rw [if_neg ha] at hholds
      rw [hsole a (mem_keys_of_holds hholds) ha] at hholds
      cases hholds
    · rw [if_neg hr]
      apply h
      by_cases ha : a = antID
      · subst ha
        rw [if_pos rfl, lookup_erase_ne hr] at hholds
        rwa [holds_eq_isSome hall]
      · rwa [if_neg ha] at hholds

theorem indexed_reduced {requestID : String} {allocation allocation' : AntAllocation}
    (halloc : allocations.lookup requestID = some allocation) :
    Indexed { s with
      allocationsByAnt :=
        s.allocationsByAnt.insert antID (allocations.insert requestID allocation') } := by
  intro a r hholds
  have hsame : s.holds a r = true := by
    rw [holds_insert antID _ s.antsByRequest] at hholds
    by_cases ha : a = antID
    · subst ha
      rw [if_pos rfl, lookup_insert_eq] at hholds
      rw [holds_eq_isSome hall]
      by_cases hr : r = requestID
      · rw [hr, halloc]
        rfl
      · rwa [if_neg hr] at hholds
    · rwa [if_neg ha] at hholds
  exact h a r hsame

end

theorem indexed_release_iff (h : Indexed s) (reservation : AntReservation) :
    Indexed (Resource.release s reservation).1 ↔ s.Sole reservation := by
  unfold Resource.release Sole drains
  cases s.antRegistrations.lookup reservation.antID with
  | none => simpa using h
  | some =>
    unfold release
    cases hall : s.allocationsByAnt.lookup reservation.antID with
    | none => simpa using h
    | some allocations =>
      cases halloc : allocations.lookup reservation.jobRequestID with
      | none => simpa [halloc] using h
      | some allocation =>
        by_cases hsize : size (allocation.taskTypes.erase reservation.taskType) = 0
        · simpa [halloc, hsize] using indexed_drained_iff h hall
        · simpa [halloc, hsize] using indexed_reduced h hall halloc

theorem lookup_mergeAllocation (reported : List AntAllocation)
    (allocations : FinMap String AntAllocation) :
    ((reported.foldl mergeAllocation allocations).lookup r).isSome =
      ((allocations.lookup r).isSome || reported.any fun alloc => alloc.jobRequestID == r) := by
  induction reported generalizing allocations with
  | nil => simp
  | cons alloc reported ih =>
    have hone : ((mergeAllocation allocations alloc).lookup r).isSome =
        ((allocations.lookup r).isSome || alloc.jobRequestID == r) := by
      unfold mergeAllocation
      by_cases hr : r = alloc.jobRequestID
      · subst hr
        split <;> simp
      · have hr' : (alloc.jobRequestID == r) = false := by simpa using Ne.symm hr
        split <;> rw [lookup_insert_eq, if_neg hr, hr', Bool.or_false]
    rw [List.foldl_cons, ih, hone, List.any_cons, Bool.or_assoc]

theorem holds_addRegistration (registration : AntRegistration) :
    (s.addRegistration registration).holds a r = (s.holds a r || (a == registration.antID &&
        registration.allocations.any fun alloc => alloc.jobRequestID == r)) := by
  unfold addRegistration holds
  rw [lookup_insert_eq]
  by_cases ha : a = registration.antID
  · subst ha
    rw [if_pos rfl, Option.bind_some, lookup_mergeAllocation, beq_self_eq_true, Bool.true_and]
    cases s.allocationsByAnt.lookup registration.antID <;> rfl
  · have ha' : (a == registration.antID) = false := by simpa using ha
    rw [if_neg ha, ha', Bool.false_and, Bool.or_false]

theorem indexed_addRegistration_iff (h : Indexed s) (registration : AntRegistration) :
    Indexed (s.addRegistration registration) ↔ ∀ alloc ∈ registration.allocations,
        s.listed registration.antID alloc.jobRequestID = true := by
  constructor
  · intro hind alloc halloc
    apply hind registration.antID alloc.jobRequestID
    rw [holds_addRegistration, beq_self_eq_true, Bool.true_and,
      List.any_eq_true.mpr ⟨alloc, halloc, by simp⟩, Bool.or_true]
  · intro hrep a r hr
    rw [holds_addRegistration, Bool.or_eq_true] at hr
    rcases hr with hold | hnew
    · exact h a r hold
    simp only [Bool.and_eq_true, beq_iff_eq] at hnew
    obtain ⟨rfl, hany⟩ := hnew
    obtain ⟨alloc, halloc, he⟩ := List.any_eq_true.mp hany
    rw [← beq_iff_eq.mp he]
    exact hrep alloc halloc

end State

theorem indexed_step_iff {cfg : Config} {m m' : Manager} {action : Action} (h : Indexed m.state)
    (he : m.step cfg action = some m') : Indexed m'.state ↔ Orderly m action := by
  cases action with
  | register =>
    cases he
    exact indexed_addRegistration_iff h _
  | unregister antID =>
    cases he
    exact iff_of_true (indexed_removeRegistration h antID) trivial
  | reserve =>
    obtain ⟨result, hres, rfl⟩ := Option.map_eq_some_iff.mp he
    exact iff_of_true (indexed_reserve hres h) trivial
  | release reservation =>
    cases he
    exact indexed_release_iff h reservation
  | releaseJob requestID =>
    cases he
    exact iff_of_true (indexed_releaseJob h requestID) trivial
  | updateContainer =>
    cases he
    refine iff_of_true ?_ trivial
    unfold updateContainer
    split <;> exact h
  | listStaleAnts | listStaleAllocations =>
    simp only [step, Option.ite_none_right_eq_some, Option.some.injEq] at he
    rw [← he.2]
    exact iff_of_true h trivial
  | removeStaleAnt =>
    unfold step at he
    dsimp only at he
    split at he <;> cases he
    exact iff_of_true (indexed_removeRegistration h _) trivial
  | releaseStaleAllocation =>
    unfold step at he
    dsimp only at he
    split at he <;> cases he
    next reservation rest hlist =>
    simpa [Orderly, hlist] using indexed_release_iff h reservation

/-- From the start no allocation leaks along a run exactly if every step of it is orderly. -/
theorem noLeak_iff_orderly (cfg : Config) (actions : List Action) :
    (system cfg).Along NoLeak new actions ↔ (system cfg).Meets Orderly new actions := by
  have hnoLeak : ∀ m : Manager, NoLeak m ↔ Indexed m.state := fun m =>
    and_iff_left_of_imp indexed_iff_releaseJob.mp
  refine TransitionSystem.along_iff_meets (I := fun m => Indexed m.state) ?_ ?_ ?_ actions
  · exact fun m h => (hnoLeak m).mpr h
  · intro m action m' h he
    rw [hnoLeak, ← iff_def]
    exact indexed_step_iff h he
  · intro a r hholds
    simp [new, newState, holds] at hholds

def shellAnt (antID : String) : AntRegistration where
  antID := antID
  antTopic := antID ++ "-topic"
  encryptionKey := ""
  tags := []
  methods := [.shell]
  totalExecuted := 0
  allocations := []
  receivedAt := 0
  validRegistration := none

def reserveShell (requestID taskType : String) (choice : ℕ) : Action :=
  .reserve ⟨requestID, taskType, .shell, [], false⟩ 0 choice

def releaseFirst : List Action :=
  [.register (shellAnt "a") 0, .register (shellAnt "b") 0, reserveShell "r1" "compile" 0,
    reserveShell "r1" "test" 1,
    .release (newAntReservation "b" "" "r1" "compile" "" 0 0 0)]

theorem unlisted_after_release : ¬ ∀ cfg m, (system cfg).Reachable m → NoLeak m := by
  intro h
  obtain ⟨m, hm, hholds, hunl⟩ := TransitionSystem.exists_reachableWith
    (S := system ⟨60, 60⟩) (fun _ _ => True)
    (fun m => m.state.holds "a" "r1" = true ∧ m.state.listed "a" "r1" = false)
    releaseFirst rfl (by decide)
  have hlist := (h _ m hm).1 "a" "r1" hholds
  rw [hunl] at hlist
  cases hlist

end Formicary.Resource

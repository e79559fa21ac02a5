import Formicary.Verification.Resource.Index

/-! # The indexes of methods and tags

A registration adds its ant to the indexes and takes it from none. -/

namespace Formicary.Resource

open State Manager AList Option FinMap

variable {s s' : State} {a : String}

def Action.enrolled : Action → Option AntRegistration
  | .register registration now => some { registration with receivedAt := now }
  | _ => none

/-- The registrations and their indexes stay, and ants keep their allocation tables. -/
structure SameRoster (s s' : State) : Prop where
  registrations : s'.antRegistrations = s.antRegistrations
  byTag : s'.antByTag = s.antByTag
  byMethod : s'.antByMethod = s.antByMethod
  tables : ∀ antID, antID ∈ s.allocationsByAnt → antID ∈ s'.allocationsByAnt

theorem SameRoster.refl (s : State) : SameRoster s s :=
  ⟨rfl, rfl, rfl, fun _ h => h⟩

theorem sameRoster_doReserve {call : ReserveCall} {timeout now : Time} {choice : ℕ}
    {result : State × Except String AntReservation}
    (he : doReserve s call timeout now choice = some result) : SameRoster s result.1 := by
  rcases doReserve_state he with hsame | ⟨reservation, -, hadded⟩
  · rw [hsame]
    exact SameRoster.refl s
  · rw [hadded]
    exact ⟨rfl, rfl, rfl, fun _ h => (mem_insert _).mpr (.inr h)⟩

theorem sameRoster_release (s : State) (reservation : AntReservation) :
    SameRoster s (release s reservation).1 := by
  unfold release
  split
  · exact SameRoster.refl s
  unfold State.release
  split
  · exact SameRoster.refl s
  split
  · exact SameRoster.refl s
  dsimp only
  split <;> exact ⟨rfl, rfl, rfl, fun _ h => (mem_insert _).mpr (.inr h)⟩

theorem sameRoster_releaseJob (s : State) (requestID : String) :
    SameRoster s (s.releaseJob requestID) := by
  unfold releaseJob
  split
  · exact SameRoster.refl s
  refine ⟨rfl, rfl, rfl, fun antID h => ?_⟩
  rw [← lookup_isSome] at h ⊢
  rwa [lookup_mapValues, isSome_map]

variable {cfg : Config} {m m' : Manager} {action : Action}

theorem step_roster (he : m.step cfg action = some m') :
    (∃ registration, action.enrolled = some registration ∧
      m'.state = m.state.addRegistration registration) ∨
    action.enrolled = none ∧
      ((∃ antID, m'.state = m.state.removeRegistration antID) ∨ SameRoster m.state m'.state) := by
  cases action with
  | register =>
    cases he
    exact .inl ⟨_, rfl, rfl⟩
  | unregister antID =>
    cases he
    exact .inr ⟨rfl, .inl ⟨antID, rfl⟩⟩
  | reserve =>
    obtain ⟨result, hres, rfl⟩ := map_eq_some_iff.mp he
    exact .inr ⟨rfl, .inr (sameRoster_doReserve hres)⟩
  | release reservation =>
    cases he
    exact .inr ⟨rfl, .inr (sameRoster_release m.state reservation)⟩
  | releaseJob requestID =>
    cases he
    exact .inr ⟨rfl, .inr (sameRoster_releaseJob m.state requestID)⟩
  | updateContainer =>
    cases he
    refine .inr ⟨rfl, .inr ?_⟩
    unfold State.updateContainer
    split <;> exact ⟨rfl, rfl, rfl, fun _ h => h⟩
  | listStaleAnts | listStaleAllocations =>
    obtain ⟨-, he⟩ := ite_none_right_eq_some.mp he
    cases he
    exact .inr ⟨rfl, .inr (SameRoster.refl m.state)⟩
  | removeStaleAnt =>
    unfold step at he
    dsimp only at he
    split at he <;> cases he
    exact .inr ⟨rfl, .inl ⟨_, rfl⟩⟩
  | releaseStaleAllocation =>
    unfold step at he
    dsimp only at he
    split at he <;> cases he
    exact .inr ⟨rfl, .inr (sameRoster_release m.state _)⟩

def Keyed (s : State) : Prop :=
  ∀ antID registration, s.antRegistrations.lookup antID = some registration →
    registration.antID = antID

theorem keyed_addRegistration (h : Keyed s) (registration : AntRegistration) :
    Keyed (s.addRegistration registration) := by
  intro antID registration' hlook
  rw [addRegistration, lookup_insert_eq] at hlook
  split at hlook
  · next ha =>
    cases hlook
    exact ha.symm
  · exact h antID registration' hlook

theorem keyed_of_registrations (h : Keyed s) (heq : s'.antRegistrations = s.antRegistrations) :
    Keyed s' := by
  unfold Keyed
  rwa [heq]

theorem keyed_step (h : Keyed m.state) (he : m.step cfg action = some m') : Keyed m'.state := by
  rcases step_roster he with ⟨registration, -, hadd⟩ | ⟨-, ⟨id, hrem⟩ | hsame⟩
  · rw [hadd]
    exact keyed_addRegistration h registration
  · intro antID registration hlook
    rw [hrem, removeRegistration, lookup_erase_eq] at hlook
    split at hlook
    · cases hlook
    · exact h antID registration hlook
  · exact keyed_of_registrations h hsame.registrations

section Index

variable {κ : Type} {k : κ} {f : AntRegistration → List κ}

def Declared (s : State) (f : AntRegistration → List κ) (antID : String) (k : κ) : Prop :=
  ∃ registration, s.antRegistrations.lookup antID = some registration ∧ k ∈ f registration

theorem declared_addRegistration (registration : AntRegistration) :
    Declared (s.addRegistration registration) f a k ↔
      if a = registration.antID then k ∈ f registration else Declared s f a k := by
  unfold Declared addRegistration
  rw [lookup_insert_eq]
  split <;> simp

theorem declared_removeRegistration (antID : String) :
    Declared (s.removeRegistration antID) f a k ↔ a ≠ antID ∧ Declared s f a k := by
  unfold Declared removeRegistration
  rw [lookup_erase_eq]
  split <;> simp [*]

variable [DecidableEq κ] {index : FinMap κ (FinSet String)}

def Listed (index : FinMap κ (FinSet String)) (antID : String) (k : κ) : Prop :=
  antID ∈ (index.lookup k).getD ∅

instance (antID : String) : Decidable (Listed index antID k) :=
  inferInstanceAs (Decidable (_ ∈ _))

def Mirrored (s : State) (f : AntRegistration → List κ) (index : FinMap κ (FinSet String)) : Prop :=
  ∀ antID k, Listed index antID k ↔ Declared s f antID k

theorem listed_updateAnts (keys : List κ) (antID : String) :
    Listed (updateAnts index keys antID) a k ↔ Listed index a k ∨ a = antID ∧ k ∈ keys := by
  unfold updateAnts
  induction keys generalizing index with
  | nil => simp
  | cons key keys ih =>
    rw [List.foldl_cons, ih]
    by_cases hk : k = key
    · subst hk
      simp only [Listed, lookup_insert, getD_some, mem_insert, List.mem_cons, true_or, and_true]
      tauto
    · simp [Listed, lookup_insert_ne hk, hk]

theorem listed_mapValues_erase (antID : String) :
    Listed (index.mapValues fun _ ants => ants.erase antID) a k ↔ a ≠ antID ∧ Listed index a k := by
  unfold Listed
  rw [lookup_mapValues]
  cases index.lookup k with
  | none => simp
  | some => simp [mem_erase]

theorem mirrored_addRegistration_iff (h : Mirrored s f index) (registration : AntRegistration) :
    Mirrored (s.addRegistration registration) f
        (updateAnts index (f registration) registration.antID) ↔
      ∀ old ∈ s.antRegistrations.lookup registration.antID, f old ⊆ f registration := by
  unfold Mirrored
  simp only [listed_updateAnts, declared_addRegistration, h _ _]
  constructor
  · intro hmirrored old hold k hk
    simpa using (hmirrored registration.antID k).mp (.inl ⟨old, hold, hk⟩)
  intro hwider a k
  by_cases ha : a = registration.antID
  · subst ha
    simp only [true_and, if_true, or_iff_right_iff_imp]
    rintro ⟨old, hold, hk⟩
    exact hwider old hold hk
  · simp [ha]

theorem mirrored_removeRegistration (h : Mirrored s f index) (antID : String) :
    Mirrored (s.removeRegistration antID) f (index.mapValues fun _ ants => ants.erase antID) := by
  intro a k
  rw [listed_mapValues_erase, declared_removeRegistration, h a k]

end Index

def Mirrors (s : State) : Prop :=
  Mirrored s AntRegistration.methods s.antByMethod ∧ Mirrored s AntRegistration.tags s.antByTag

/-- An ant that registers again declares all that it declared before. -/
def Widens (m : Manager) (action : Action) : Prop :=
  ∀ registration ∈ action.enrolled, ∀ old ∈ m.state.antRegistrations.lookup registration.antID,
      old.methods ⊆ registration.methods ∧ old.tags ⊆ registration.tags

theorem mirrors_step_iff (h : Mirrors m.state)
    (he : m.step cfg action = some m') : Mirrors m'.state ↔ Widens m action := by
  unfold Widens
  rcases step_roster he with ⟨registration, henr, hadd⟩ | ⟨henr, ⟨id, hrem⟩ | hsame⟩
  · rw [hadd, henr]
    simp only [mem_some_iff, forall_eq', forall_and]
    exact and_congr (mirrored_addRegistration_iff h.1 _) (mirrored_addRegistration_iff h.2 _)
  · rw [hrem, henr]
    refine iff_of_true ?_ (by simp)
    exact ⟨mirrored_removeRegistration h.1 id, mirrored_removeRegistration h.2 id⟩
  · rw [henr]
    refine iff_of_true ?_ (by simp)
    unfold Mirrors Mirrored Declared
    rw [hsame.byMethod, hsame.byTag, hsame.registrations]
    exact h

/-- Listed ants are registered, and registered ones have an allocation table. -/
structure Rostered (s : State) : Prop where
  keyed : Keyed s
  table : ∀ antID, antID ∈ s.antRegistrations → antID ∈ s.allocationsByAnt
  method : ∀ antID method, Listed s.antByMethod antID method → antID ∈ s.antRegistrations
  tag : ∀ antID tag, Listed s.antByTag antID tag → antID ∈ s.antRegistrations

theorem rostered_step (h : Rostered m.state)
    (he : m.step cfg action = some m') : Rostered m'.state := by
  have hkeyed := keyed_step h.keyed he
  rcases step_roster he with ⟨registration, -, hadd⟩ | ⟨-, ⟨id, hrem⟩ | hsame⟩
  · rw [hadd] at hkeyed ⊢
    refine ⟨hkeyed, fun antID hmem => ?_, fun antID method hlist => ?_, fun antID tag hlist => ?_⟩
    · exact (mem_insert _).mpr (((mem_insert _).mp hmem).imp_right (h.table antID))
    · refine (mem_insert _).mpr ?_
      exact ((listed_updateAnts _ _).mp hlist).symm.imp And.left (h.method antID method)
    · refine (mem_insert _).mpr ?_
      exact ((listed_updateAnts _ _).mp hlist).symm.imp And.left (h.tag antID tag)
  · rw [hrem] at hkeyed ⊢
    refine ⟨hkeyed, fun antID hmem => ?_, fun antID method hlist => ?_, fun antID tag hlist => ?_⟩
    · exact mem_erase.mpr ((mem_erase.mp hmem).imp_right (h.table antID))
    · refine mem_erase.mpr ?_
      exact ((listed_mapValues_erase id).mp hlist).imp_right (h.method antID method)
    · refine mem_erase.mpr ?_
      exact ((listed_mapValues_erase id).mp hlist).imp_right (h.tag antID tag)
  · refine ⟨hkeyed, ?_, ?_, ?_⟩
    · rw [hsame.registrations]
      exact fun antID hmem => hsame.tables antID (h.table antID hmem)
    · rw [hsame.registrations, hsame.byMethod]
      exact h.method
    · rw [hsame.registrations, hsame.byTag]
      exact h.tag

def State.examined (s : State) (call : ReserveCall) : List String :=
  match s.tagAnts call.tags with
  | .error _ => []
  | .ok ants => ((s.antByMethod.lookup call.method).getD ∅).keys.filter fun antID =>
      available call.tags ants antID = 2

/-- `reserve` finds the registrations that it needs, and takes an ant that is registered. -/
structure ReservesRegistered (s : State) : Prop where
  examined : ∀ call, ∀ antID ∈ s.examined call, antID ∈ s.antRegistrations
  returned : ∀ call timeout now choice s' reservation,
    s.reserve call timeout now choice = some (s', .ok reservation) →
      reservation.antID ∈ s.antRegistrations

theorem Rostered.reserves (h : Rostered s) : ReservesRegistered s := by
  constructor
  · intro call antID hmem
    unfold State.examined at hmem
    split at hmem
    · cases hmem
    · exact h.method antID call.method (mem_keys.mpr (List.mem_of_mem_filter hmem))
  · intro call timeout now choice s' reservation he
    rcases reserve_cases he with ⟨err, herr⟩ | ⟨-, _, hsup, hres⟩ | ⟨-, _, hsup, -, -, hres⟩
    · cases herr
    all_goals
      cases hres
      obtain ⟨key, registration, hlook, -, hkey⟩ := hsup
      rw [← hkey, h.keyed key registration hlook, ← lookup_isSome, hlook]
      rfl

theorem rostered_of_reachable (hm : (system cfg).Reachable m) : Rostered m.state := by
  induction hm with
  | init hs =>
    cases hs
    constructor <;> simp [Keyed, Listed, new, newState]
  | step _ _ he ih => exact rostered_step ih he

/-- Listed ants are registered and have an allocation table in every state, so that reservations
find them. The indexes mirror the registrations along a run exactly if no ant that registers again
leaves out a method or a tag. -/
theorem indexes_mirror_iff (cfg : Config) :
    (∀ m, (system cfg).Reachable m → Rostered m.state ∧ ReservesRegistered m.state) ∧
      ∀ actions, (system cfg).Along (fun m => Mirrors m.state) new actions ↔
        (system cfg).Meets Widens new actions := by
  constructor
  · exact fun m hm => ⟨rostered_of_reachable hm, (rostered_of_reachable hm).reserves⟩
  refine TransitionSystem.along_iff_meets_of_iff (fun m action m' h he => mirrors_step_iff h he) ?_
  constructor <;> intro antID k <;> simp [Listed, Declared, new, newState]

def narrowed : List Action :=
  [.register { shellAnt "a" with methods := [.shell, .docker] } 0, .register (shellAnt "a") 1]

theorem listed_after_narrowing : ¬ ∀ cfg m, (system cfg).Reachable m → Mirrors m.state := by
  intro h
  obtain ⟨m, hm, hlist, hdecl⟩ := TransitionSystem.exists_reachableWith
    (S := system ⟨60, 60⟩) (fun _ _ => True)
    (fun m => Listed m.state.antByMethod "a" .docker ∧
      (m.state.antRegistrations.lookup "a").map AntRegistration.methods = some [.shell])
    narrowed rfl (by decide)
  obtain ⟨registration, hlook, hdocker⟩ := ((h _ m hm).1 "a" .docker).mp hlist
  rw [hlook] at hdecl
  simp only [map_some, some.injEq] at hdecl
  simp [hdecl] at hdocker

end Formicary.Resource

import Formicary.Verification.Resource.Roster

/-! # What a reservation finds -/

namespace Formicary.Resource

open State Manager List

variable {s s' : State} {call : ReserveCall} {timeout now : Time} {choice : ℕ} {a : String}
  {r : AntReservation}

/-- The number of task types allocated on an ant. -/
def State.load (s : State) (antID : String) : ℕ :=
  calculateLoad ((s.allocationsByAnt.lookup antID).getD ∅)

/-- The ants that `reserve` chooses from. -/
def State.fitting (s : State) (call : ReserveCall) (timeout now : Time) : List AntReservation :=
  match s.tagAnts call.tags with
  | .error _ => []
  | .ok ants => s.candidates call.requestID call.taskType call.method call.tags
      ((s.antByMethod.lookup call.method).getD ∅) ants timeout now

theorem of_mem_fitting (h : Rostered s) (hr : r ∈ s.fitting call timeout now) :
    r.antID ∈ s.examined call ∧ s.Supports call timeout now r.antID ∧
      r.currentLoad = s.load r.antID := by
  unfold fitting at hr
  split at hr
  · cases hr
  next ants htags =>
  have hsup := (supports_of_mem_candidates hr).1
  obtain ⟨key, hkey, hr⟩ := mem_filterMap.mp hr
  split at hr
  · cases hr
  next havail =>
  split at hr
  · cases hr
  next registration hlook =>
  split at hr
  · cases hr
  next allocations hall =>
  split at hr <;> cases hr
  have hid := h.keyed key registration hlook
  refine ⟨?_, hsup, ?_⟩
  · rw [examined, htags]
    exact mem_filter.mpr ⟨hid ▸ hkey, by simpa [newAntReservation, hid] using havail⟩
  · simp [newAntReservation, load, hall]

theorem exists_mem_fitting (h : Rostered s) (ha : a ∈ s.examined call)
    (hsup : s.Supports call timeout now a) :
    ∃ r ∈ s.fitting call timeout now, r.antID = a := by
  unfold examined at ha
  split at ha
  · cases ha
  next ants htags =>
  obtain ⟨hkey, havail⟩ := mem_filter.mp ha
  obtain ⟨key, registration, hlook, hsup, rfl⟩ := hsup
  rw [← h.keyed key registration hlook] at hlook
  have hmem : registration.antID ∈ s.allocationsByAnt :=
    h.table _ (AList.lookup_isSome.mp (by rw [hlook]; rfl))
  obtain ⟨allocations, hall⟩ := Option.isSome_iff_exists.mp (AList.lookup_isSome.mpr hmem)
  rw [fitting, htags]
  refine ⟨newAntReservation registration.antID registration.antTopic call.requestID call.taskType
    registration.encryptionKey (calculateLoad allocations) registration.totalExecuted now,
    mem_filterMap.mpr ⟨registration.antID, hkey, ?_⟩, rfl⟩
  rw [if_neg (by simpa using havail)]
  simp only [hlook, hall, hsup, if_true]

/-- A reservation is one of the fitting ones, of the least load unless the run is dry. -/
theorem reserve_eq_ok (he : s.reserve call timeout now choice = some (s', .ok r)) :
    ∃ r' ∈ s.fitting call timeout now, r.antID = r'.antID ∧
      (call.dryRun = false → ∀ other ∈ s.fitting call timeout now,
        r'.currentLoad ≤ other.currentLoad) := by
  unfold reserve at he
  dsimp only at he
  split at he
  · cases he
  split at he
  · cases he
  next ants htags =>
  rw [fitting, htags]
  split at he
  · cases he
  split at he
  · cases he
  next r' hch =>
  refine ⟨r', mem_of_getElem? hch, ?_⟩
  split at he
  · next hdry =>
    cases he
    exact ⟨rfl, by simp [hdry]⟩
  split at he <;> cases he
  next hmin =>
  exact ⟨rfl, fun _ other hother => by simpa using all_eq_true.mp hmin other hother⟩

theorem exists_reserve (hr : r ∈ s.fitting call timeout now) :
    ∃ choice s' r, s.reserve call timeout now choice = some (s', .ok r) := by
  obtain ⟨least, hleast, hmin⟩ := Finset.exists_min_image (s.fitting call timeout now).toFinset
    AntReservation.currentLoad ⟨r, mem_toFinset.mpr hr⟩
  obtain ⟨choice, hch⟩ := mem_iff_getElem?.mp (mem_toFinset.mp hleast)
  unfold fitting at hr hch hmin
  split at hr
  · cases hr
  next ants htags =>
  rw [htags] at hch hmin
  have hsize : FinMap.size ((s.antByMethod.lookup call.method).getD ∅) ≠ 0 := by
    intro hzero
    obtain ⟨key, hkey, -⟩ := mem_filterMap.mp hr
    rw [FinMap.size_eq_length_keys, length_eq_zero_iff] at hzero
    simp [hzero] at hkey
  have hall : (s.candidates call.requestID call.taskType call.method call.tags
      ((s.antByMethod.lookup call.method).getD ∅) ants timeout now).all
        (fun other => least.currentLoad ≤ other.currentLoad) = true := by
    simpa using hmin
  refine ⟨choice, ?_⟩
  unfold reserve
  simp only [if_neg hsize, htags, if_neg (ne_nil_of_mem hr), hch, hall]
  cases call.dryRun <;> simp

/-- `reserve` succeeds exactly if some registered ant supports the call, and one that is not dry
takes a supporting ant of the least load. -/
structure Finds (s : State) (call : ReserveCall) (timeout now : Time) : Prop where
  succeeds : (∃ choice s' r, s.reserve call timeout now choice = some (s', .ok r)) ↔
    ∃ antID, s.Supports call timeout now antID
  least : call.dryRun = false → ∀ choice s' r,
    s.reserve call timeout now choice = some (s', .ok r) → s.Supports call timeout now r.antID ∧
        ∀ antID, s.Supports call timeout now antID → s.load r.antID ≤ s.load antID

/-- In every state, reserving finds the right ant exactly if beside every ant that supports the call
there is one that is examined, and not more loaded unless the run is dry. -/
theorem reserve_finds_iff {cfg : Config} {m : Manager} (hm : (system cfg).Reachable m)
    (call : ReserveCall) (timeout now : Time) :
    Finds m.state call timeout now ↔ ∀ antID, m.state.Supports call timeout now antID →
      ∃ other ∈ m.state.examined call, m.state.Supports call timeout now other ∧
        (call.dryRun = true ∨ m.state.load other ≤ m.state.load antID) := by
  have h := rostered_of_reachable hm
  constructor
  · intro hfinds antID hsup
    obtain ⟨choice, s', r, he⟩ := hfinds.succeeds.mpr ⟨antID, hsup⟩
    obtain ⟨r', hr', hid, -⟩ := reserve_eq_ok he
    obtain ⟨hexam, hsup', -⟩ := of_mem_fitting h hr'
    refine ⟨r'.antID, hexam, hsup', ?_⟩
    cases hdry : call.dryRun with
    | true => exact .inl rfl
    | false => exact .inr (hid ▸ (hfinds.least hdry choice s' r he).2 antID hsup)
  · intro hexam
    constructor
    · constructor
      · rintro ⟨choice, s', r, he⟩
        obtain ⟨r', hr', -, -⟩ := reserve_eq_ok he
        exact ⟨r'.antID, (of_mem_fitting h hr').2.1⟩
      · rintro ⟨antID, hsup⟩
        obtain ⟨other, hother, hsup, -⟩ := hexam antID hsup
        obtain ⟨r, hr, -⟩ := exists_mem_fitting h hother hsup
        exact exists_reserve hr
    · intro hdry choice s' r he
      obtain ⟨r', hr', hid, hmin⟩ := reserve_eq_ok he
      obtain ⟨-, hsup, hload⟩ := of_mem_fitting h hr'
      rw [hid]
      refine ⟨hsup, fun antID hant => ?_⟩
      obtain ⟨other, hother, hsup, hle⟩ := hexam antID hant
      obtain ⟨o, ho, rfl⟩ := exists_mem_fitting h hother hsup
      have hleast := hmin hdry o ho
      rw [hload, (of_mem_fitting h ho).2.2] at hleast
      simp only [hdry, Bool.false_eq_true, false_or] at hle
      omega

def gpuAnt : AntRegistration := { shellAnt "a" with tags := ["gpu"] }

theorem reserve_finds_gpu : ∃ m, (system ⟨60, 60⟩).Reachable m ∧
    Finds m.state ⟨"r1", "train", .shell, ["gpu"], false⟩ 60 0 := by
  have hm : (system ⟨60, 60⟩).Reachable ⟨newState.addRegistration gpuAnt, [], []⟩ :=
    .step (a := .register gpuAnt 0) (.init rfl) trivial rfl
  refine ⟨_, hm, (reserve_finds_iff hm _ 60 0).mpr ?_⟩
  rintro antID ⟨key, registration, hlook, -, rfl⟩
  have hgpu : registration = gpuAnt := by
    simp only [addRegistration, newState, FinMap.lookup_insert_eq] at hlook
    split at hlook <;> cases hlook
    rfl
  subst hgpu
  exact ⟨"a", by decide, ⟨"a", gpuAnt, rfl, by decide, rfl⟩, .inr (le_refl _)⟩

/-- Tags are indexed as they are written, and compared without regard to case. -/
theorem gpu_not_found : ∃ m, (system ⟨60, 60⟩).Reachable m ∧
    (∀ choice, ∃ err, m.state.reserve ⟨"r1", "train", .shell, ["GPU"], false⟩ 60 0 choice =
      some (m.state, .error err)) ∧
    m.state.Supports ⟨"r1", "train", .shell, ["GPU"], false⟩ 60 0 "a" := by
  refine ⟨⟨newState.addRegistration gpuAnt, [], []⟩,
    .step (a := .register gpuAnt 0) (.init rfl) trivial rfl, fun choice => ⟨_, rfl⟩, ?_⟩
  exact ⟨"a", gpuAnt, rfl, by decide, rfl⟩

end Formicary.Resource

import Formicary.Model.FanOut
import Formicary.Verification.Resource.Capacity

/-! # The slots of fanned out tasks

All the children of a fan-out reserve under the request and the task type of the parent, so an ant
counts one for all of them, and the first of them to return frees what the others and the parent
hold there. -/

namespace Formicary.FanOut

open Resource Resource.State Option

variable {s : Resource.State} {a requestID taskType : String} {task : Task} {timeout now : Time}

def holdsTask (s : Resource.State) (antID requestID taskType : String) : Bool :=
  ((s.allocationsByAnt.lookup antID).bind fun allocations => allocations.lookup requestID).any
    fun alloc => decide (taskType ∈ alloc.taskTypes)

def load (s : Resource.State) (antID : String) : ℕ :=
  calculateLoad ((s.allocationsByAnt.lookup antID).getD ∅)

def loadOfOthers (s : Resource.State) (antID requestID taskType : String) : ℕ :=
  calculateLoad (((s.allocationsByAnt.lookup antID).getD ∅).mapValues fun id alloc =>
    if id = requestID then { alloc with taskTypes := alloc.taskTypes.erase taskType } else alloc)

theorem load_eq (s : Resource.State) (a requestID taskType : String) :
    load s a = loadOfOthers s a requestID taskType +
      if holdsTask s a requestID taskType then 1 else 0 := by
  unfold load loadOfOthers calculateLoad holdsTask
  rw [FinMap.sum_values_mapValues (k := requestID)
    (d := fun alloc => if taskType ∈ alloc.taskTypes then 1 else 0)
    (f := fun id alloc => if id = requestID then
      { alloc with taskTypes := alloc.taskTypes.erase taskType } else alloc)]
  · cases s.allocationsByAnt.lookup a with
    | none => rfl
    | some allocations =>
      cases hlook : allocations.lookup requestID with
      | none | some => simp [hlook]
  · intro alloc
    rw [if_pos rfl]
    exact FinMap.size_erase_add alloc.taskTypes taskType
  · intro id alloc hid
    rw [if_neg hid]

theorem holdsTask_reserved (reservation : AntReservation) :
    holdsTask (s.reserved requestID taskType reservation now) a requestID taskType =
      (holdsTask s a requestID taskType || decide (a = reservation.antID)) := by
  unfold holdsTask State.reserved addAntsByRequest addAllocationsByAnt
  rw [FinMap.lookup_insert_eq]
  by_cases ha : a = reservation.antID
  · simp [ha]
  · simp [ha]

theorem holdsTask_release {reservation : AntReservation}
    (hreg : (s.antRegistrations.lookup reservation.antID).isSome = true)
    (hreq : reservation.jobRequestID = requestID) (htask : reservation.taskType = taskType) :
    holdsTask (Resource.release s reservation).1 a requestID taskType =
      (holdsTask s a requestID taskType && !decide (a = reservation.antID)) := by
  subst hreq htask
  obtain ⟨registration, hlook⟩ := isSome_iff_exists.mp hreg
  unfold Resource.release
  rw [hlook]
  dsimp only
  by_cases ha : a = reservation.antID
  · -- the task is gone, with the allocation if it was the last one
    subst ha
    unfold State.release
    cases hall : s.allocationsByAnt.lookup reservation.antID with
    | none => simp [holdsTask, hall]
    | some allocations =>
      cases halloc : allocations.lookup reservation.jobRequestID with
      | none => simp [holdsTask, hall, halloc]
      | some =>
        dsimp only
        rw [halloc]
        dsimp only
        split <;> simp [holdsTask]
  · rw [decide_eq_false ha, Bool.not_false, Bool.and_true]
    unfold State.release
    split
    · rfl
    split
    · rfl
    dsimp only
    split <;> simp [holdsTask, ha]

def Child.isOn (antID : String) : Child → Bool
  | .dispatched reservation => reservation.antID == antID
  | _ => false

def State.runningOn (st : State) (antID : String) : ℕ :=
  st.children.countP (Child.isOn antID)

variable {old : Child}

theorem runningOn_set {st : State} {i : ℕ} (hi : st.children[i]? = some old)
    (new : Child) (a : String) :
    (st.set i new).runningOn a + (if old.isOn a then 1 else 0) =
      st.runningOn a + if new.isOn a then 1 else 0 := by
  obtain ⟨hlt, hget⟩ := List.getElem?_eq_some_iff.mp hi
  unfold State.runningOn State.set
  rw [List.countP_set hlt, hget]
  split
  · next hon =>
    have hpos : 0 < st.children.countP (Child.isOn a) :=
      List.countP_pos_iff.mpr ⟨old, List.mem_of_getElem? hi, hon⟩
    omega
  · omega

theorem children_set {st : State} {i : ℕ} (hi : st.children[i]? = some old)
    (new : Child) : (st.set i new).children[i]? = some new := by
  exact List.getElem?_set_self (List.getElem?_eq_some_iff.mp hi).1

variable {parent : Option String} {st st' : State} {i : ℕ}

/-- Every ant counts its children in its load, and the slot of the parent stands. -/
def Covered (task : Task) (parent : Option String) (st : State) : Prop :=
  ∀ a, loadOfOthers st.resources a task.jobRequestID task.taskType + st.runningOn a ≤
      load st.resources a ∧
    (parent = some a → holdsTask st.resources a task.jobRequestID task.taskType = true)

theorem covered_iff : Covered task parent st ↔ ∀ a, st.runningOn a ≤
        (if holdsTask st.resources a task.jobRequestID task.taskType then 1 else 0) ∧
      (parent = some a → holdsTask st.resources a task.jobRequestID task.taskType = true) := by
  refine forall_congr' fun a => and_congr_left fun _ => ?_
  rw [load_eq st.resources a task.jobRequestID task.taskType]
  exact Nat.add_le_add_iff_left

/-- There is at most one child on every ant, and the slots are those of the children and of the
parent. -/
structure Fair (task : Task) (parent : Option String) (st : State) : Prop where
  keyed : Keyed st.resources
  reservations : ∀ reservation, Child.dispatched reservation ∈ st.children →
    reservation.jobRequestID = task.jobRequestID ∧ reservation.taskType = task.taskType ∧
      (st.resources.antRegistrations.lookup reservation.antID).isSome = true
  single : ∀ a, st.runningOn a ≤ 1
  slot : ∀ a, holdsTask st.resources a task.jobRequestID task.taskType = true ↔
    parent = some a ∨ st.runningOn a = 1

theorem Fair.covered (h : Fair task parent st) : Covered task parent st := by
  refine covered_iff.mpr fun a => ⟨?_, fun hpar => (h.slot a).mpr (.inl hpar)⟩
  have hsing := h.single a
  split
  · exact hsing
  next hnone =>
  have hne : st.runningOn a ≠ 1 := fun hone => hnone ((h.slot a).mpr (.inr hone))
  omega

theorem Fair.set (h : Fair task parent st) (hi : st.children[i]? = some old)
    (hold : ∀ a, old.isOn a = false) (new : Child) (hnew : ∀ a, new.isOn a = false) :
    Fair task parent (st.set i new) := by
  have hrun : ∀ a, (st.set i new).runningOn a = st.runningOn a := by
    intro a
    have hset := runningOn_set hi new a
    rw [hold, hnew] at hset
    exact hset
  refine ⟨h.keyed, fun reservation hmem => ?_, fun a => ?_, fun a => ?_⟩
  · rcases List.mem_or_eq_of_mem_set hmem with hmem | heq
    · exact h.reservations reservation hmem
    · have hon := hnew reservation.antID
      rw [← heq] at hon
      simp [Child.isOn] at hon
  · rw [hrun]
    exact h.single a
  · rw [hrun]
    exact h.slot a

def State.dispatch (st : State) (task : Task) (i : ℕ) (reservation : AntReservation)
    (now : Time) : State :=
  { st with
    resources := st.resources.reserved task.jobRequestID task.taskType reservation now }.set i
      (.dispatched reservation)

section Dispatch

variable {reservation : AntReservation} (h : Fair task parent st)
  (hi : st.children[i]? = some .acquired)

include hi in
theorem runningOn_dispatch (a : String) : (st.dispatch task i reservation now).runningOn a =
      st.runningOn a + if reservation.antID = a then 1 else 0 := by
  have hset := runningOn_set hi (.dispatched reservation) a
  change (st.set i (.dispatched reservation)).runningOn a = _
  simpa [Child.isOn] using hset

theorem holdsTask_dispatch (a : String) :
    holdsTask (st.dispatch task i reservation now).resources a task.jobRequestID task.taskType =
      (holdsTask st.resources a task.jobRequestID task.taskType ||
        decide (a = reservation.antID)) :=
  holdsTask_reserved reservation

include h hi

theorem Fair.covered_dispatch_iff : Covered task parent (st.dispatch task i reservation now) ↔
      st.runningOn reservation.antID = 0 := by
  have hcov := covered_iff.mp h.covered
  rw [covered_iff]
  simp only [runningOn_dispatch hi, holdsTask_dispatch]
  constructor
  · intro hall
    have hant := (hall reservation.antID).1
    simp at hant
    exact hant
  · intro hzero a
    by_cases ha : reservation.antID = a
    · subst ha
      simp [hzero]
    · obtain ⟨hle, hpar⟩ := hcov a
      simpa [ha, Ne.symm ha] using ⟨hle, hpar⟩

theorem Fair.dispatch (hreq : reservation.jobRequestID = task.jobRequestID)
    (htask : reservation.taskType = task.taskType)
    (hreg : (st.resources.antRegistrations.lookup reservation.antID).isSome = true)
    (hzero : st.runningOn reservation.antID = 0) :
    Fair task parent (st.dispatch task i reservation now) := by
  refine ⟨h.keyed, fun reservation' hmem => ?_, fun a => ?_, fun a => ?_⟩
  · rcases List.mem_or_eq_of_mem_set hmem with hmem | heq
    · exact h.reservations reservation' hmem
    · cases heq
      exact ⟨hreq, htask, hreg⟩
  · rw [runningOn_dispatch hi]
    have hsing := h.single a
    split
    · next ha =>
      subst ha
      omega
    · exact hsing
  · rw [runningOn_dispatch hi, holdsTask_dispatch, Bool.or_eq_true, h.slot a, decide_eq_true_iff]
    by_cases ha : reservation.antID = a
    · subst ha
      simp [hzero]
    · simp [ha, Ne.symm ha]

end Dispatch

def State.finish (st : State) (i : ℕ) (reservation : AntReservation) : State :=
  { st with resources := (Resource.release st.resources reservation).1 }.set i .finished

section Finish

variable {reservation : AntReservation} (h : Fair task parent st)
  (hi : st.children[i]? = some (.dispatched reservation))
include hi

theorem runningOn_finish (a : String) :
    (st.finish i reservation).runningOn a + (if reservation.antID = a then 1 else 0) =
      st.runningOn a := by
  have hset := runningOn_set hi .finished a
  change (st.set i .finished).runningOn a + _ = _
  simpa [Child.isOn] using hset

include h

theorem Fair.holdsTask_finish (a : String) :
    holdsTask (st.finish i reservation).resources a task.jobRequestID task.taskType =
      (holdsTask st.resources a task.jobRequestID task.taskType &&
        !decide (a = reservation.antID)) := by
  obtain ⟨hreq, htask, hreg⟩ := h.reservations reservation (List.mem_of_getElem? hi)
  exact holdsTask_release hreg hreq htask

theorem Fair.covered_finish_iff :
    Covered task parent (st.finish i reservation) ↔ parent ≠ some reservation.antID := by
  have hcov := covered_iff.mp h.covered
  rw [covered_iff]
  simp only [h.holdsTask_finish hi]
  constructor
  · intro hall hpar
    have hslot := (hall reservation.antID).2 hpar
    simp at hslot
  · intro hpar a
    have hrun := runningOn_finish hi a
    by_cases ha : reservation.antID = a
    · subst ha
      have hsing := h.single reservation.antID
      rw [if_pos rfl] at hrun
      refine ⟨?_, fun heq => absurd heq hpar⟩
      omega
    · rw [if_neg ha, Nat.add_zero] at hrun
      obtain ⟨hle, hkept⟩ := hcov a
      rw [hrun]
      simpa [Ne.symm ha] using ⟨hle, hkept⟩

theorem Fair.finish (hpar : parent ≠ some reservation.antID) :
    Fair task parent (st.finish i reservation) := by
  have hkept := (sameRoster_release st.resources reservation).registrations
  refine ⟨keyed_of_registrations h.keyed hkept, fun reservation' hmem => ?_, fun a => ?_,
    fun a => ?_⟩
  · rcases List.mem_or_eq_of_mem_set hmem with hmem | heq
    · obtain ⟨hreq, htask, hreg⟩ := h.reservations reservation' hmem
      refine ⟨hreq, htask, ?_⟩
      change (((Resource.release st.resources reservation).1).antRegistrations.lookup _).isSome = _
      rwa [hkept]
    · cases heq
  · have hrun := runningOn_finish hi a
    have hsing := h.single a
    omega
  · have hrun := runningOn_finish hi a
    rw [h.holdsTask_finish hi, Bool.and_eq_true, h.slot a, Bool.not_eq_true',
      decide_eq_false_iff_not]
    by_cases ha : reservation.antID = a
    · subst ha
      have hsing := h.single reservation.antID
      rw [if_pos rfl] at hrun
      have hne : (st.finish i reservation).runningOn reservation.antID ≠ 1 := by omega
      simp [hpar, hne]
    · rw [if_neg ha] at hrun
      simp [Ne.symm ha, ← hrun]

end Finish

def Child.reservation : Child → Option AntReservation
  | .dispatched reservation => some reservation
  | _ => none

/-- No child is sent to an ant where there is another one, and none returns from the ant of the
parent. -/
def Apart (task : Task) (timeout : Time) (parent : Option String) (st : State) : Action → Prop
  | .reserve i now choice =>
    ∀ st' ∈ st.step task timeout (.reserve i now choice),
      ∀ reservation ∈ st'.children[i]?.bind Child.reservation, st.runningOn reservation.antID = 0
  | .release i =>
    ∀ reservation ∈ st.children[i]?.bind Child.reservation, parent ≠ some reservation.antID
  | _ => True

instance (task : Task) (timeout : Time) (parent : Option String) (st : State) (action : Action) :
    Decidable (Apart task timeout parent st action) := by
  cases action <;> dsimp only [Apart] <;> infer_instance

/-- The steps of a fan-out. -/
inductive Fires (task : Task) (timeout : Time) (st : State) : Action → State → Prop where
  | acquire {i : ℕ} (hi : st.children[i]? = some .waiting) :
      Fires task timeout st (.acquire i) (st.set i .acquired)
  | skip {i : ℕ} (hi : st.children[i]? = some .waiting) :
      Fires task timeout st (.skip i) (st.set i .finished)
  | fail {i : ℕ} (now : Time) (choice : ℕ) (hi : st.children[i]? = some .acquired) :
      Fires task timeout st (.reserve i now choice) (st.set i .finished)
  | dispatch {i : ℕ} {now : Time} (choice : ℕ) {reservation : AntReservation}
      (hi : st.children[i]? = some .acquired)
      (hsupports : st.resources.Supports
        ⟨task.jobRequestID, task.taskType, task.executionMethod, task.tags, false⟩ timeout now
        reservation.antID)
      (hrequest : reservation.jobRequestID = task.jobRequestID)
      (htask : reservation.taskType = task.taskType) :
      Fires task timeout st (.reserve i now choice) (st.dispatch task i reservation now)
  | finish {i : ℕ} {reservation : AntReservation}
      (hi : st.children[i]? = some (.dispatched reservation)) :
      Fires task timeout st (.release i) (st.finish i reservation)

variable {action : Action}

theorem fires_of_step (h : st.step task timeout action = some st') :
    Fires task timeout st action st' := by
  cases action with
  | acquire =>
    obtain ⟨⟨hi, -⟩, h⟩ := ite_none_right_eq_some.mp h
    cases h
    exact .acquire hi
  | skip =>
    obtain ⟨hi, h⟩ := ite_none_right_eq_some.mp h
    cases h
    exact .skip hi
  | reserve i now choice =>
    obtain ⟨hi, h⟩ := ite_none_right_eq_some.mp h
    split at h
    · cases h
      exact .fail now choice hi
    cases hres : doReserve st.resources
        ⟨task.jobRequestID, task.taskType, task.executionMethod, task.tags, false⟩ timeout now
        choice with
    | none =>
      rw [hres] at h
      cases h
    | some =>
      rw [hres] at h
      rcases doReserve_eq hres with rfl | hres
      · cases h
        exact .fail now choice hi
      rcases reserve_cases hres with ⟨err, rfl⟩ | ⟨hdry, -⟩ |
        ⟨-, reservation, hsup, hreq, htask, rfl⟩
      · cases h
        exact .fail now choice hi
      · cases hdry
      · cases h
        exact .dispatch choice hi hsup hreq htask
  | release =>
    simp only [State.step] at h
    split at h <;> cases h
    next reservation hi =>
    exact .finish hi

theorem Fair.step (h : Fair task parent st) (hstep : st.step task timeout action = some st') :
    (Covered task parent st' ↔ Apart task timeout parent st action) ∧
      (Apart task timeout parent st action → Fair task parent st') := by
  have hfires := fires_of_step hstep
  cases hfires with
  | acquire hi =>
    have hfair := h.set hi (fun _ => rfl) .acquired fun _ => rfl
    exact ⟨iff_of_true hfair.covered trivial, fun _ => hfair⟩
  | skip hi =>
    have hfair := h.set hi (fun _ => rfl) .finished fun _ => rfl
    exact ⟨iff_of_true hfair.covered trivial, fun _ => hfair⟩
  | @fail i now choice hi =>
    have hfair := h.set hi (fun _ => rfl) .finished fun _ => rfl
    have hapart : Apart task timeout parent st (.reserve i now choice) := by
      simp [Apart, hstep, children_set hi, Child.reservation]
    exact ⟨iff_of_true hfair.covered hapart, fun _ => hfair⟩
  | @dispatch i now choice reservation hi hsup hreq htask =>
    have hchild : (st.dispatch task i reservation now).children[i]? =
        some (.dispatched reservation) := children_set hi (.dispatched reservation)
    have hapart : Apart task timeout parent st (.reserve i now choice) ↔
        st.runningOn reservation.antID = 0 := by
      simp [Apart, hstep, hchild, Child.reservation]
    obtain ⟨key, registration, hlook, -, hant⟩ := hsup
    have hreg : (st.resources.antRegistrations.lookup reservation.antID).isSome := by
      rw [← hant, h.keyed key registration hlook, hlook]
      rfl
    rw [hapart]
    exact ⟨h.covered_dispatch_iff hi, h.dispatch hi hreq htask hreg⟩
  | @finish i reservation hi =>
    have hapart : Apart task timeout parent st (.release i) ↔ parent ≠ some reservation.antID := by
      simp [Apart, hi, Child.reservation]
    rw [hapart]
    exact ⟨h.covered_finish_iff hi, h.finish hi⟩

/-- Fanning out a task from any state of the resource manager, in which the task may itself be
allocated to an ant: throughout a run every ant counts the children that are on it and the slot of
the parent stands, if and only if no child is sent to an ant where there is another one and none
returns from the ant of the parent. -/
theorem covered_iff_apart (task : Task) (timeout : Time) (parent : Option String)
    (resources : Resource.State) (hkeyed : Keyed resources)
    (hparent : ∀ a, holdsTask resources a task.jobRequestID task.taskType = true ↔
      parent = some a) (actions : List Action) :
    (system task timeout).Along (Covered task parent) (start task resources) actions ↔
      (system task timeout).Meets (Apart task timeout parent) (start task resources) actions := by
  have hidle : ∀ child ∈ (start task resources).children, child = .waiting := by
    intro child hchild
    obtain ⟨_, -, rfl⟩ := List.mem_map.mp hchild
    rfl
  have hrun : ∀ a, (start task resources).runningOn a = 0 := by
    intro a
    refine List.countP_eq_zero.mpr fun child hchild => ?_
    rw [hidle child hchild]
    exact Bool.false_ne_true
  have hfair : Fair task parent (start task resources) := by
    refine ⟨hkeyed, fun reservation hmem => ?_, fun a => ?_, fun a => ?_⟩
    · cases hidle _ hmem
    · rw [hrun]
      exact Nat.zero_le 1
    · rw [hrun]
      refine (hparent a).trans ?_
      simp
  exact TransitionSystem.along_iff_meets (fun st h => h.covered)
    (fun st action st' h hstep => (h.step hstep).imp_left Iff.mp) hfair actions

def deployRegions : Task where
  jobRequestID := "r1"
  taskType := "deploy"
  tags := []
  executionMethod := .shell
  maxParallel := 0
  items := ["east", "west"]

/-- Both children are sent to ants before the first one returns. -/
def deployBoth (first second : ℕ) : List Action :=
  [.acquire 0, .acquire 1, .reserve 0 0 first, .reserve 1 0 second, .release 0]

def twoAnts : Resource.State :=
  (newState.addRegistration (shellAnt "a")).addRegistration (shellAnt "b")

theorem covered_deployRegions :
    (system deployRegions 60).Along (Covered deployRegions none) (start deployRegions twoAnts)
      (deployBoth 0 0) := by
  have hkeyed : Keyed twoAnts := by
    refine keyed_addRegistration (keyed_addRegistration ?_ _) _
    intro antID registration hlook
    simp [newState] at hlook
  refine (covered_iff_apart deployRegions 60 none twoAnts hkeyed (fun a => ?_) _).mpr (by decide)
  have hfree : holdsTask twoAnts a "r1" "deploy" = false := by
    refine Bool.eq_false_of_not_eq_true fun hslot => ?_
    have hholds : twoAnts.holds a "r1" = true := isSome_of_any hslot
    rw [twoAnts, holds_addRegistration, holds_addRegistration] at hholds
    simp [shellAnt, newState, holds] at hholds
  rw [show holdsTask twoAnts a deployRegions.jobRequestID deployRegions.taskType = false from hfree]
  simp

/-- On one ant the load counts one for two children, and is zero when the first has returned. -/
theorem uncovered_deployRegions : ((system deployRegions 60).runWith (fun _ _ => True)
      (start deployRegions (newState.addRegistration (shellAnt "a"))) ((deployBoth 0 0).take 4)).map
        (fun st => (st.runningOn "a", load st.resources "a")) = some (2, 1) ∧
    ((system deployRegions 60).runWith (fun _ _ => True)
      (start deployRegions (newState.addRegistration (shellAnt "a"))) (deployBoth 0 0)).map
        (fun st => (st.runningOn "a", load st.resources "a")) = some (1, 0) := by
  decide

end Formicary.FanOut

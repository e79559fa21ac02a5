import Formicary.Model.JobScheduler
import Formicary.Verification.Resource.Holdings
import Formicary.Verification.Resource.Roster
import Formicary.Verification.Supervisor.Machine

/-! # The capacity of ants

The check before a reservation asks, for every tag, for some ant that does not have more requests
than its capacity. -/

namespace Formicary.Resource

open State Option

variable {s s' : State} {a r requestID : String} {timeout now : Time}

def State.allocated (s : State) (antID : String) : ℕ :=
  FinMap.size ((s.allocationsByAnt.lookup antID).getD ∅)

theorem holds_iff_mem : s.holds a r = true ↔ r ∈ (s.allocationsByAnt.lookup a).getD ∅ := by
  unfold holds
  cases s.allocationsByAnt.lookup a with
  | none => simp
  | some => rw [bind_some, AList.lookup_isSome, getD_some]

theorem allocated_add (h : ∀ r, r ≠ requestID → s'.holds a r = s.holds a r) :
    s'.allocated a + (if s.holds a requestID then 1 else 0) =
      s.allocated a + if s'.holds a requestID then 1 else 0 := by
  simp only [holds_iff_mem]
  refine FinMap.size_add_of_mem_iff fun r hr => ?_
  rw [← holds_iff_mem, ← holds_iff_mem, h r hr]

/-- What a reservation for the tasks of a job may change. -/
structure Places (requestID : String) (tasks : List TaskDefinition) (timeout now : Time)
    (s s' : State) : Prop where
  registrations : s'.antRegistrations = s.antRegistrations
  others : ∀ a r, r ≠ requestID → s'.holds a r = s.holds a r
  supported : ∀ a, s'.holds a requestID = true → s.holds a requestID = true ∨
    ∃ task ∈ tasks, s.Supports ⟨requestID, task.taskType, task.method, task.tags, false⟩ timeout
      now a

theorem Places.refl (tasks : List TaskDefinition) : Places requestID tasks timeout now s s :=
  ⟨rfl, fun _ _ _ => rfl, fun _ => .inl⟩

theorem places_doReserve {task : TaskDefinition} (tasks : List TaskDefinition) {choice : ℕ}
    {result : State × Except String AntReservation}
    (he : doReserve s ⟨requestID, task.taskType, task.method, task.tags, false⟩ timeout now choice =
      some result) : Places requestID (task :: tasks) timeout now s result.1 := by
  rcases doReserve_state he with hsame | ⟨reservation, hsup, hadded⟩
  · rw [hsame]
    exact Places.refl _
  rw [hadded]
  refine ⟨rfl, fun a r hr => ?_, fun a hholds => ?_⟩
  · rw [holds_reserved, decide_eq_false hr, Bool.false_and, Bool.or_false]
  rw [holds_reserved, Bool.or_eq_true, decide_eq_true rfl, Bool.true_and,
    decide_eq_true_iff] at hholds
  refine hholds.imp_right fun ha => ⟨task, List.mem_cons_self, ?_⟩
  rw [ha]
  exact hsup

variable {tasks : List TaskDefinition} {choices : List ℕ}

theorem places_doReserveJobResources {reservations : FinMap String AntReservation}
    {result : State × Except String (FinMap String AntReservation)}
    (he : doReserveJobResources requestID false timeout now s reservations tasks choices =
      some result) : Places requestID tasks timeout now s result.1 := by
  induction tasks generalizing s reservations choices with
  | nil =>
    cases he
    exact Places.refl _
  | cons task tasks ih =>
    cases choices with
    | nil => cases he
    | cons =>
      rw [doReserveJobResources] at he
      split at he
      · cases he
      · next s₁ alloc hone =>
        have h₁ := places_doReserve tasks hone
        have h₂ := ih he
        refine ⟨h₂.registrations.trans h₁.registrations,
          fun a r hr => (h₂.others a r hr).trans (h₁.others a r hr), fun a hholds => ?_⟩
        rcases h₂.supported a hholds with hheld | ⟨task', hmem, hsup⟩
        · exact h₁.supported a hheld
        refine .inr ⟨task', List.mem_cons_of_mem task hmem, ?_⟩
        unfold State.Supports at hsup ⊢
        rwa [h₁.registrations] at hsup
      · next s₁ err hone =>
        cases he
        have h₁ := places_doReserve tasks hone
        refine ⟨(sameRoster_releaseJob s₁ requestID).registrations.trans h₁.registrations,
          fun a r hr => ?_, fun a hholds => h₁.supported a (holds_of_releaseJob hholds)⟩
        rw [if_neg Bool.false_ne_true, holds_releaseJob, decide_eq_false hr, Bool.false_and,
          Bool.not_false, Bool.and_true]
        exact h₁.others a r hr

theorem places_schedule {jd : JobDefinition}
    (he : schedule s requestID jd timeout now choices = some s') :
    Places requestID jd.tasks timeout now s s' := by
  unfold schedule at he
  split at he
  · cases he
    exact Places.refl _
  · obtain ⟨result, hres, rfl⟩ := map_eq_some_iff.mp he
    exact places_doReserveJobResources hres

/-- No ant has got more requests and now has more than its capacity. -/
def Respects (s s' : State) : Prop :=
  ∀ antID registration, s'.antRegistrations.lookup antID = some registration →
    registration.maxCapacity < s'.allocated antID → s'.allocated antID ≤ s.allocated antID

def HasRoom (s : State) (requestID antID : String) (registration : AntRegistration) : Prop :=
  s.holds antID requestID = true ∨ (s.allocated antID : ℤ) < registration.maxCapacity

instance (s : State) (requestID antID : String) (registration : AntRegistration) :
    Decidable (HasRoom s requestID antID registration) :=
  inferInstanceAs (Decidable (_ ∨ _))

theorem Places.respects (h : Places requestID tasks timeout now s s')
    (hroom : ∀ antID registration, s.antRegistrations.lookup antID = some registration →
      s'.holds antID requestID = true → HasRoom s requestID antID registration) :
    Respects s s' := by
  intro antID registration hlook hover
  rw [h.registrations] at hlook
  have hcount := allocated_add (h.others antID)
  cases hholds : s'.holds antID requestID with
  | false =>
    rw [hholds, if_neg Bool.false_ne_true] at hcount
    split at hcount <;> omega
  | true =>
    rw [hholds, if_pos rfl] at hcount
    rcases hroom antID registration hlook hholds with hheld | hless
    · rw [hheld, if_pos rfl] at hcount
      omega
    · split at hcount <;> omega

def RespectsCapacity (cfg : Config) (m : Manager) : SchedulerAction → Prop
  | .schedule requestID jd now choices =>
    ∀ s' ∈ schedule m.state requestID jd cfg.antRegistrationAliveTimeout now choices,
      Respects m.state s'
  | .act _ => True

/-- All the ants that support a task of the job have room for the request. -/
def AllHaveRoom (cfg : Config) (m : Manager) : SchedulerAction → Prop
  | .schedule requestID jd now _ =>
    ∀ task ∈ jd.tasks, ∀ e ∈ m.state.antRegistrations.entries,
      e.2.supports task.method task.tags cfg.antRegistrationAliveTimeout now = true →
        HasRoom m.state requestID e.1 e.2
  | .act _ => True

instance (cfg : Config) (m : Manager) (action : SchedulerAction) :
    Decidable (AllHaveRoom cfg m action) := by
  cases action <;> dsimp only [AllHaveRoom] <;> infer_instance

theorem respectsCapacity_of_allHaveRoom {cfg : Config} {m : Manager} {action : SchedulerAction}
    (h : Keyed m.state) (hroom : AllHaveRoom cfg m action) : RespectsCapacity cfg m action := by
  cases action with
  | schedule =>
    intro s' hs'
    have hplaces := places_schedule hs'
    refine hplaces.respects fun antID registration hlook hholds => ?_
    rcases hplaces.supported antID hholds with hheld | ⟨task, htask, hsup⟩
    · exact .inl hheld
    obtain ⟨key, registration', hkey, hsup, rfl⟩ := hsup
    have hsame := h key registration' hkey
    rw [hsame] at hlook
    cases some.inj (hkey.symm.trans hlook)
    rw [hsame]
    exact hroom task htask ⟨key, registration⟩ (FinMap.lookup_eq_some_iff_mem.mp hkey) hsup
  | act => trivial

/-- Throughout a run the scheduler puts no ant over its capacity if, whenever it schedules a job,
all the ants that support a task of the job have room. -/
theorem capacity_respected (cfg : Config) (actions : List SchedulerAction)
    (hroom : (schedulerSystem cfg).Meets (AllHaveRoom cfg) Manager.new actions) :
    (schedulerSystem cfg).Meets (RespectsCapacity cfg) Manager.new actions := by
  refine TransitionSystem.meets_of_invariant (I := fun m => Keyed m.state) ?_ ?_ hroom
  · intro m action m' h hok hstep
    refine ⟨respectsCapacity_of_allHaveRoom h hok, ?_⟩
    cases action with
    | schedule =>
      obtain ⟨s', hs', rfl⟩ := map_eq_some_iff.mp hstep
      exact keyed_of_registrations h (places_schedule hs').registrations
    | act => exact keyed_step h hstep
  · intro antID registration hlook
    simp [Manager.new, newState] at hlook

def linuxAnt : AntRegistration :=
  { shellAnt "a" with tags := ["linux"], maxCapacity := 1 }

def deployJob : JobDefinition :=
  JobSupervisor.jobOf [{ JobSupervisor.shellTask "deploy" "" with tags := ["linux"] }]

/-- The ant registers and the job is scheduled for a request. -/
def deployOnce : List SchedulerAction :=
  [.act (.register linuxAnt 0), .schedule "r1" deployJob 0 [0]]

theorem capacity_respected_deployOnce :
    (schedulerSystem ⟨60, 60⟩).Meets (RespectsCapacity ⟨60, 60⟩) Manager.new deployOnce :=
  capacity_respected ⟨60, 60⟩ deployOnce (by decide)

/-- The check lets a second request onto an ant that can take one. -/
theorem scheduled_over_capacity : ((schedulerSystem ⟨60, 60⟩).runWith (fun _ _ => True) Manager.new
      (deployOnce ++ [.schedule "r2" deployJob 0 [0]])).map (fun m =>
        (m.state.allocated "a", (m.state.antRegistrations.lookup "a").map fun registration =>
          registration.maxCapacity)) = some (2, some 1) ∧
    ((schedulerSystem ⟨60, 60⟩).runWith (fun _ _ => True) Manager.new deployOnce).map (fun m =>
      m.state.allocated "a") = some 1 := by
  decide

end Formicary.Resource

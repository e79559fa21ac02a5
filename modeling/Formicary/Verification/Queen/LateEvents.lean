import Formicary.Model.Queen
import Formicary.Verification.Resource.Index
import Formicary.Verification.Supervisor.Machine

/-! # Events of an earlier run

A lifecycle event carries the id of the execution it is about, but its consumers match it to a job
by the id of the request alone. -/

namespace Formicary.Queen

open RequestState Option

section Fields

variable (q : Queen) (i j : ℕ) (sup : Supervised) (s : JobSupervisor) (requestID : String)

@[simp] theorem releaseJob_resources :
    (q.releaseJob requestID).resources.state = q.resources.state.releaseJob requestID := rfl

@[simp] theorem put_supervisors : (q.put i sup s).supervisors = q.supervisors := rfl

@[simp] theorem put_resources : (q.put i sup s).resources = q.resources := rfl

theorem put_running_self (h : i < q.running.length) :
    (q.put i sup s).running[i]? = some { sup with supervisor := s } :=
  List.getElem?_set_self h

theorem put_running_ne (h : j ≠ i) : (q.put i sup s).running[j]? = q.running[j]? :=
  List.getElem?_set_ne h.symm

end Fields

/-- A run that is going on, with its supervisor in the table of the launcher and an ant allocated to
it, and an event of another execution of its request. -/
structure Overtaken (q : Queen) (i : ℕ) (sup : Supervised) (antID : String)
    (event : JobExecutionLifecycleEvent) : Prop where
  running : q.running[i]? = some sup
  subscribed : sup.subscribed = true
  live : sup.cancelled = false
  table : q.supervisors.lookup sup.requestID = some i
  holds : q.resources.state.holds antID sup.requestID = true
  listed : q.resources.state.listed antID sup.requestID = true
  request : event.jobRequestID = sup.requestID
  earlier : event.jobExecutionID ≠ sup.executionID

/-- The supervisor is neither cancelled nor paused, the table still has it, and no ant of its
request has been freed. -/
structure Untouched (i : ℕ) (requestID : String) (q q' : Queen) : Prop where
  supervisor : q'.running[i]? = q.running[i]?
  table : q'.supervisors.lookup requestID = q.supervisors.lookup requestID
  holds : ∀ antID, q'.resources.state.holds antID requestID =
    q.resources.state.holds antID requestID

def delivers (q : Queen) : Action → Option JobExecutionLifecycleEvent
  | .deliverToResources k => q.toResources[k]?
  | .deliverToLauncher k _ => q.toLauncher[k]?
  | .deliverToSupervisor k _ => q.toSupervisors[k]?.map Prod.snd
  | _ => none

/-- The deliveries that do not touch the run of the `i`-th supervisor. A supervisor of another run
may still free the ants of the request, if the event pauses it. -/
def Harmless (q : Queen) (i : ℕ) (event : JobExecutionLifecycleEvent) : Action → Prop
  | .deliverToSupervisor k _ =>
    ∀ target ∈ q.toSupervisors[k]?,
      if target.1 = i then event.jobState.isTerminal = false ∧ event.jobState ≠ paused
      else event.jobState = paused → ∀ sup ∈ q.running[target.1]?,
        sup.requestID = event.jobRequestID → sup.supervisor.machine.execution.jobState ≠ executing
  | _ => event.jobState.isTerminal = false

section Late

variable {q q' : Queen} {i : ℕ} {sup : Supervised} {antID : String}
  {event : JobExecutionLifecycleEvent}

theorem Overtaken.lt_length (h : Overtaken q i sup antID event) : i < q.running.length :=
  (List.getElem?_eq_some_iff.mp h.running).1

theorem Overtaken.not_untouched_of_released (h : Overtaken q i sup antID event)
    (hres : q'.resources.state = q.resources.state.releaseJob sup.requestID) :
    ¬ Untouched i sup.requestID q q' := by
  intro hunt
  have hholds := hunt.holds antID
  rw [hres, Resource.State.holds_releaseJob, h.holds, h.listed] at hholds
  simp at hholds

theorem updateFromJobLifecycleEvent_supervisors (q : Queen) (i : ℕ)
    (event : JobExecutionLifecycleEvent) (c : Clock) :
    (q.updateFromJobLifecycleEvent i event c).supervisors = q.supervisors := by
  unfold updateFromJobLifecycleEvent
  split
  · rfl
  split
  · dsimp only
    split <;> rfl
  · rfl

variable {c : Clock} {j : ℕ} (h : Overtaken q i sup antID event) (hrun : q'.running = q.running)
  (hsups : q'.supervisors = q.supervisors) (hres : q'.resources = q.resources)
include hrun hsups hres

theorem untouched_of_same (requestID : String) : Untouched i requestID q q' :=
  ⟨by rw [hrun], by rw [hsups], fun _ => by rw [hres]⟩

include h

theorem Overtaken.resources_iff :
    Untouched i sup.requestID q (q'.receiveByResources event) ↔
      event.jobState.isTerminal = false := by
  unfold receiveByResources
  split
  · next hterm =>
    refine iff_of_false ?_ (by rw [hterm]; decide)
    apply h.not_untouched_of_released
    rw [releaseJob_resources, hres, h.request]
  · next hterm =>
    exact iff_of_true (untouched_of_same hrun hsups hres _) (Bool.eq_false_of_not_eq_true hterm)

theorem Overtaken.launcher_iff :
    Untouched i sup.requestID q (q'.receiveByLauncher event c) ↔
      event.jobState.isTerminal = false := by
  unfold receiveByLauncher
  split
  · next hterm =>
    refine iff_of_false (fun hunt => ?_) (by rw [hterm]; decide)
    have htable := hunt.table
    -- the entry of the request is gone, whatever else happens
    have herased : ∀ q : Queen, (q.removeSupervisor event c).supervisors =
        q.supervisors.erase event.jobRequestID := by
      intro q
      unfold removeSupervisor
      split
      · split
        · rw [updateFromJobLifecycleEvent_supervisors]
        · rfl
      · rfl
    rw [herased, h.table, h.request, FinMap.lookup_erase_eq, if_pos rfl] at htable
    cases htable
  · next hterm =>
    exact iff_of_true { untouched_of_same hrun hsups hres _ with }
      (Bool.eq_false_of_not_eq_true hterm)

theorem Overtaken.supervisor_iff :
    Untouched i sup.requestID q (q'.updateFromJobLifecycleEvent i event c) ↔
      event.jobState.isTerminal = false ∧ event.jobState ≠ paused := by
  unfold updateFromJobLifecycleEvent
  rw [hrun, h.running]
  dsimp only
  split
  · next hmatch =>
    refine iff_of_false (fun hunt => ?_) ?_
    · have hloc : (sup.attach q'.db).location ≠ .start := by
        intro hstart
        have hsubs := h.subscribed
        unfold Supervised.subscribed at hsubs
        rw [show sup.supervisor.location = .start from hstart] at hsubs
        cases hsubs
      have hsup := hunt.supervisor
      have hlen : i < q'.running.length := by
        rw [hrun]
        exact h.lt_length
      rw [h.running] at hsup
      split at hsup <;>
        (rw [put_running_self _ _ _ _ (by exact hlen)] at hsup
         have hcanc := congrArg (Option.map Supervised.cancelled) hsup
         simp [h.live, hloc] at hcanc)
    · rintro ⟨hterm, hpause⟩
      rcases hmatch.2 with hstate | hstate
      · rw [hterm] at hstate
        cases hstate
      · exact hpause hstate
  · next hmatch =>
    refine iff_of_true (untouched_of_same hrun hsups hres _)
      ⟨?_, fun hpause => hmatch ⟨h.request, .inr hpause⟩⟩
    exact Bool.eq_false_of_not_eq_true fun hterm => hmatch ⟨h.request, .inl hterm⟩

theorem Overtaken.other_iff (hj : j ≠ i) :
    Untouched i sup.requestID q (q'.updateFromJobLifecycleEvent j event c) ↔
      (event.jobState = paused → ∀ other ∈ q.running[j]?, other.requestID = event.jobRequestID →
        other.supervisor.machine.execution.jobState ≠ executing) := by
  have hsame := untouched_of_same (i := i) hrun hsups hres sup.requestID
  unfold updateFromJobLifecycleEvent
  rw [hrun]
  split
  · next hnone => exact iff_of_true hsame (by simp [hnone])
  next other hother =>
  dsimp only
  split
  · next hmatch =>
    split
    · next hrels =>
      -- `PauseJob` frees the ants of the request, which are those of the later run
      obtain ⟨hpause, hexec⟩ := (Bool.and_eq_true _ _).mp hrels
      refine iff_of_false ?_ fun hidle => ?_
      · apply h.not_untouched_of_released
        rw [put_resources, releaseJob_resources, hres, ← hmatch.1, h.request]
      · exact hidle (beq_iff_eq.mp hpause) other hother hmatch.1.symm (beq_iff_eq.mp hexec)
    next hkept =>
    refine iff_of_true ⟨?_, ?_, ?_⟩ ?_
    · rw [put_running_ne _ _ _ _ _ hj.symm, hrun]
    · rw [put_supervisors, hsups]
    · rw [put_resources, hres]
      exact fun _ => rfl
    · intro hpause other' hother' _ hexec
      rw [hother] at hother'
      cases hother'
      apply hkept
      rw [hpause]
      exact (Bool.and_eq_true _ _).mpr ⟨rfl, beq_iff_eq.mpr hexec⟩
  · next hmatch =>
    refine iff_of_true hsame ?_
    intro hpause other' hother' hid
    rw [hother] at hother'
    cases hother'
    exact absurd ⟨hid.symm, .inr hpause⟩ hmatch

end Late

/-- The arrival of an event of an earlier execution leaves the run that is going on alone exactly if
it is harmless: whether it is does not depend on the execution that the event names. -/
theorem untouched_iff_harmless (definitions : String → Workflow) (cfg : Resource.Config)
    {q q' : Queen} {i : ℕ} {sup : Supervised} {antID : String}
    {event : JobExecutionLifecycleEvent} {action : Action} (h : Overtaken q i sup antID event)
    (hdelivers : q.delivers action = some event) (hstep : q.step definitions cfg action = some q') :
    Untouched i sup.requestID q q' ↔ Harmless q i event action := by
  cases action with
  | deliverToResources k =>
    have hk : q.toResources[k]? = some event := hdelivers
    simp only [step, hk, map_some, some.injEq] at hstep
    rw [← hstep]
    exact h.resources_iff rfl rfl rfl
  | deliverToLauncher k =>
    have hk : q.toLauncher[k]? = some event := hdelivers
    simp only [step, hk, map_some, some.injEq] at hstep
    rw [← hstep]
    exact h.launcher_iff rfl rfl rfl
  | deliverToSupervisor =>
    obtain ⟨⟨j, event'⟩, hk, rfl⟩ := map_eq_some_iff.mp hdelivers
    simp only [step, hk, map_some, some.injEq] at hstep
    rw [← hstep]
    simp only [Harmless, hk, mem_some_iff, forall_eq']
    by_cases hj : j = i
    · rw [if_pos hj, hj]
      exact h.supervisor_iff rfl rfl rfl
    · rw [if_neg hj]
      exact h.other_iff rfl rfl rfl hj
  | _ => cases hdelivers

def scheduleAndLaunch (execID : String) : List Action :=
  [.act (.nextSchedulable ["r1"] 0), .act .pick, .reserve 0 [0, 0], .act (.lookup 0),
    .act (.saveExecution { freshID := execID }), .act (.markReady 0),
    .act (.sendLaunchEvent true), .launch 0 none {}]

def submitted : JobRequest :=
  { JobSupervisor.readyRequest with jobState := pending, jobExecutionID := none }

def failAndRunAgain : List Action :=
  [.resources (.register (Resource.shellAnt "a") 0), .act (.submit submitted)] ++
  scheduleAndLaunch "e1" ++ List.replicate 3 (.proceed 0 {}) ++
  [.taskDone 0 (JobSupervisor.replied failed) {}] ++ List.replicate 3 (.proceed 0 {}) ++
  [.act (.restart (QueryContext.newQueryContext none) "r1" false "" 0)] ++
  scheduleAndLaunch "e2" ++ [.proceed 1 {}]

def compileAndTestSystem : TransitionSystem Queen Action :=
  system (fun _ => JobSupervisor.compileAndTest) ⟨60, 60⟩

theorem exists_overtaken (event : JobExecutionLifecycleEvent) (after : List Action)
    (p : Queen → Queen → Prop)
    (h : ∃ q ∈ compileAndTestSystem.runWith (fun _ _ => True) initial failAndRunAgain,
      (∃ sup ∈ q.running[1]?, sup.subscribed = true ∧ sup.cancelled = false ∧
        q.supervisors.lookup sup.requestID = some 1 ∧
        q.resources.state.holds "a" sup.requestID = true ∧
        q.resources.state.listed "a" sup.requestID = true ∧
        event.jobRequestID = sup.requestID ∧ event.jobExecutionID ≠ sup.executionID) ∧
      ∃ q' ∈ compileAndTestSystem.runWith (fun _ _ => True) q after, p q q') :
    ∃ q sup q', compileAndTestSystem.Reachable q ∧ Overtaken q 1 sup "a" event ∧
      compileAndTestSystem.runWith (fun _ _ => True) q after = some q' ∧ p q q' := by
  obtain ⟨q, hq, ⟨sup, hrun, hsubs, hlive, htable, hholds, hlist, hreq, hearl⟩, q', hq', hp⟩ := h
  have hreach := (TransitionSystem.ReachableWith.init rfl).runWith hq
  exact ⟨q, sup, q', hreach, ⟨hrun, hsubs, hlive, htable, hholds, hlist, hreq, hearl⟩, hq', hp⟩

/-- That the first run was executing is no news to the resource manager. -/
theorem untouched_by_late_start : ∃ q sup q', compileAndTestSystem.Reachable q ∧
      Overtaken q 1 sup "a" ⟨"r1", "e1", executing⟩ ∧ Untouched 1 sup.requestID q q' := by
  obtain ⟨q, sup, q', hreach, hover, hrun, hdeliv⟩ :=
    exists_overtaken ⟨"r1", "e1", executing⟩ [.deliverToResources 2]
      (fun q _ => q.delivers (.deliverToResources 2) = some ⟨"r1", "e1", executing⟩) (by decide)
  obtain ⟨-, q₁, hstep, hrest⟩ := TransitionSystem.runWith_cons_eq_some.mp hrun
  cases hrest
  have hstep : q.step (fun _ => JobSupervisor.compileAndTest) ⟨60, 60⟩ (.deliverToResources 2) =
      some q' := hstep
  exact ⟨q, sup, q', hreach, hover, (untouched_iff_harmless _ _ hover hdeliv hstep).mpr rfl⟩

/-- The failure of the first run arrives. The ants of the second run are freed, its supervisor is
forgotten by the launcher, and the supervisor cancels the job. -/
theorem cancelled_by_late_failure : ∃ q sup q', compileAndTestSystem.Reachable q ∧
      Overtaken q 1 sup "a" ⟨"r1", "e1", failed⟩ ∧
      compileAndTestSystem.runWith (fun _ _ => True) q
        [.deliverToResources 1, .deliverToLauncher 1 {}, .deliverToSupervisor 0 {}] = some q' ∧
      q.delivers (.deliverToResources 1) = some ⟨"r1", "e1", failed⟩ ∧
      q.delivers (.deliverToLauncher 1 {}) = some ⟨"r1", "e1", failed⟩ ∧
      q'.resources.state.holds "a" "r1" = false ∧ q'.supervisors.lookup "r1" = none ∧
      (q'.running[1]?.map fun sup =>
        (sup.executionID, sup.cancelled, sup.supervisor.machine.execution.jobState)) =
          some ("e2", true, cancelled) :=
  exists_overtaken _ _ _ (by decide)

end Formicary.Queen

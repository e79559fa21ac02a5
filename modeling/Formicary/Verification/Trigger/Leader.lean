import Formicary.Model.TriggerLeader

/-! # One leader

A heartbeat makes a leader of every manager that receives it, for good. -/

namespace Formicary.Trigger.Cluster

open Function Leadership

variable {ι : Type*} [DecidableEq ι] {interval : Time} {s s' : Cluster ι} {a : Action ι}

def OneLeader (s : Cluster ι) : Prop :=
  ∀ i j, s.leads i = true → s.leads j = true → i = j

/-- Heartbeats are received by one manager only. -/
def ReceivedBy (leader : Option ι) (_ : Cluster ι) (a : Action ι) : Prop :=
  ∀ i n, a = .receive i n → leader = some i

/-- What a step other than a heartbeat makes of a manager. -/
structure Stays (l l' : Leadership) : Prop where
  isLeader : l'.isLeader = l.isLeader
  active : l.isLeader = false → l.active = [] → l'.active = []

theorem stays_watch (l : Leadership) (now : Time) (loaded : List String) :
    Stays l (l.watch interval now loaded) := by
  unfold watch nowLeader
  split
  · next hload =>
    refine ⟨rfl, fun hnot => ?_⟩
    simp [hnot] at hload
  split
  · exact ⟨rfl, fun _ _ => rfl⟩
  · exact ⟨rfl, fun _ hnil => hnil⟩

theorem stays_handleJobDefLifecycle (l : Leadership) (change : StateChange) (jobDefID : String)
    (startable : Bool) : Stays l (l.handleJobDefLifecycle change jobDefID startable) := by
  cases change with
  | deleted | disabled => exact ⟨rfl, fun _ hnil => by simp [hnil, stopTriggersForDef,
      handleJobDefLifecycle]⟩
  | updated | enabled =>
    unfold handleJobDefLifecycle startTriggersForDef
    dsimp only
    split
    · next hlead =>
      refine ⟨by split <;> rfl, fun hnot => ?_⟩
      rw [hnot] at hlead
      cases hlead
    · exact ⟨rfl, fun _ hnil => hnil⟩

theorem step_cases (hstep : (system interval).step s a = some s') (i : ι) :
    (∃ n, a = .receive i n) ∧ (s'.managers i).isLeader = true ∨
      Stays (s.managers i) (s'.managers i) := by
  have hupdate : ∀ j l, Stays (s.managers j) l →
      Stays (s.managers i) (update s.managers j l i) := by
    intro j l hstays
    by_cases hij : i = j
    · subst hij
      rwa [update_self]
    · rw [update_of_ne hij]
      exact ⟨rfl, fun _ hnil => hnil⟩
  cases a with
  | send | wait =>
    cases hstep
    exact .inr ⟨rfl, fun _ hnil => hnil⟩
  | receive j n =>
    simp only [system, step] at hstep
    split at hstep
    · cases hstep
      by_cases hij : i = j
      · subst hij
        exact .inl ⟨⟨n, rfl⟩, by simp [handleLeaderEvent]⟩
      · right
        simp only [update_of_ne hij]
        exact ⟨rfl, fun _ hnil => hnil⟩
    · cases hstep
  | tick =>
    cases hstep
    exact .inr (hupdate _ _ (stays_watch _ _ _))
  | lifecycle =>
    cases hstep
    exact .inr (hupdate _ _ (stays_handleJobDefLifecycle _ _ _ _))

theorem isLeader_of_step (hstep : (system interval).step s a = some s') {i : ι}
    (h : (s.managers i).isLeader = true) : (s'.managers i).isLeader = true := by
  rcases step_cases hstep i with ⟨-, hlead⟩ | hstays
  · exact hlead
  · rwa [hstays.isLeader]

theorem leads_of_step (hstep : (system interval).step s a = some s') {i : ι}
    (h : s'.leads i = true) : s.leads i = true ∨ ∃ n, a = .receive i n := by
  rcases step_cases hstep i with ⟨hrec, -⟩ | hstays
  · exact .inr hrec
  left
  by_contra hnot
  simp only [leads, Bool.or_eq_true, Bool.not_eq_true', not_or, Bool.not_eq_true, Bool.not_eq_false,
    List.isEmpty_iff, hstays.isLeader] at h hnot
  simp [hnot.1, hstays.active hnot.1 hnot.2] at h

theorem isLeader_receive {i : ι} {n : ℕ}
    (hstep : (system interval).step s (.receive i n) = some s') :
    (s'.managers i).isLeader = true := by
  simp only [system, step] at hstep
  split at hstep <;> cases hstep
  simp [handleLeaderEvent]

theorem receivedBy_of_isLeader {leader : ι} (h : (s.managers leader).isLeader = true)
    {actions : List (Action ι)} (hone : (system interval).Along OneLeader s actions) :
    (system interval).Meets (ReceivedBy (some leader)) s actions := by
  induction actions generalizing s with
  | nil => trivial
  | cons a actions ih =>
    intro s' hstep
    have hlead := isLeader_of_step hstep h
    have htail := hone.2 s' hstep
    refine ⟨?_, ih hlead htail⟩
    rintro i n rfl
    have hi := isLeader_receive hstep
    rw [htail.head i leader (by simp [leads, hi]) (by simp [leads, hlead])]

/-- At most one manager takes itself for the leader or runs triggers along exactly the runs in which
all the heartbeats that are received are received by one manager. -/
theorem one_leader_iff (interval : Time) (actions : List (Action ι)) :
    (system interval).Along OneLeader initial actions ↔
      ∃ leader, (system interval).Meets (ReceivedBy leader) initial actions := by
  constructor
  · suffices hgen : ∀ s : Cluster ι, (system interval).Along OneLeader s actions →
        ∃ leader, (system interval).Meets (ReceivedBy leader) s actions from hgen initial
    induction actions with
    | nil => exact fun _ _ => ⟨none, trivial⟩
    | cons a actions ih =>
      intro s hone
      cases hstep : (system interval).step s a with
      | none =>
        refine ⟨none, fun s' hs' => ?_⟩
        cases hstep.symm.trans hs'
      | some s' =>
        have htail := hone.2 s' hstep
        by_cases hrec : ∃ i n, a = .receive i n
        · obtain ⟨i, n, rfl⟩ := hrec
          refine ⟨some i, fun s'' hs'' => ?_⟩
          cases hstep.symm.trans hs''
          refine ⟨?_, receivedBy_of_isLeader (isLeader_receive hstep) htail⟩
          rintro j m heq
          cases heq
          rfl
        · obtain ⟨leader, hmeets⟩ := ih s' htail
          refine ⟨leader, fun s'' hs'' => ?_⟩
          cases hstep.symm.trans hs''
          exact ⟨fun i n heq => absurd ⟨i, n, heq⟩ hrec, hmeets⟩
  · rintro ⟨leader, hmeets⟩
    refine TransitionSystem.along_of_meets (I := fun s => ∀ i, s.leads i = true → leader = some i)
      (fun s h i j hi hj => Option.some.inj ((h i hi).symm.trans (h j hj))) ?_ ?_ hmeets
    · intro s a s' h hok hstep i hi
      rcases leads_of_step hstep hi with hold | ⟨n, rfl⟩
      · exact h i hold
      · exact hok i n rfl
    · intro _ hi
      cases hi

/-- One heartbeat of the first server, received by both: both run the triggers of a definition, and
start those of another when it is enabled. -/
theorem two_leaders : ((system 15).runWith (fun _ _ => True) (initial : Cluster Bool)
      [.send false, .receive false 0, .receive true 0, .tick false ["d1"], .tick true ["d1"],
        .lifecycle false .enabled "d2" true, .lifecycle true .enabled "d2" true]).any
      (fun s => s.leads false && s.leads true && (s.managers false).active == ["d2", "d1"] &&
        (s.managers true).active == ["d2", "d1"]) = true := by
  decide

end Formicary.Trigger.Cluster

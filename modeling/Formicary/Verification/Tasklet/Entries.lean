import Formicary.Verification.Tasklet.Steps

/-! # What the registry reports

An entry is made by `Add` and taken out by key, so a handler whose request was dropped by
`CancelJob` takes out the entry of whatever has been added under its key since. -/

namespace Formicary.Tasklet

open FinMap List Option

variable {t t' : Tasklet} {a : Step} {i j : ℕ} {c : Call} {k : String}

def Live (t : Tasklet) (j : ℕ) (k : String) : Prop :=
  ∃ c, t.calls[j]? = some c ∧ c.request.key = k ∧ c.request.action = .execute ∧
    2 ≤ c.phase.stage ∧ c.phase.stage ≤ 4 ∧ c.dropped = false

def Exact (t : Tasklet) : Prop :=
  ∀ j k, t.requests.lookup k = some j ↔ t.Live j k

theorem Inv.live (h : Inv t) (hk : t.requests.lookup k = some j) : t.Live j k := by
  obtain ⟨c, hc, hkey, hact, hdrop, hlow, hhigh⟩ := h.entries k j hk
  exact ⟨c, hc, hkey, hact, hlow, hhigh, hdrop⟩

theorem Inv.exact_iff (h : Inv t) : t.Exact ↔ ∀ j k, t.Live j k → t.requests.lookup k = some j := by
  constructor
  · intro hexact j k hlive
    exact (hexact j k).mpr hlive
  · intro hall j k
    exact ⟨h.live, hall j k⟩

theorem live_congr (hcalls : t'.calls[j]? = t.calls[j]?) : t'.Live j k ↔ t.Live j k := by
  simp [Live, hcalls]

theorem live_setPhase (hc : t.calls[i]? = some c) (phase : Phase) : (t.setPhase i phase).Live j k ↔
      if i = j then c.request.key = k ∧ c.request.action = .execute ∧ 2 ≤ phase.stage ∧
        phase.stage ≤ 4 ∧ c.dropped = false
      else t.Live j k := by
  have hcalls := calls_setPhase t i j phase
  split
  · next hij =>
    subst hij
    rw [if_pos rfl, hc] at hcalls
    simp [Live, hcalls]
  · next hij =>
    rw [if_neg hij] at hcalls
    exact live_congr hcalls

theorem live_of_live_setPhase (hc : t.calls[i]? = some c) {phase : Phase}
    (hstage : c.request.action = .execute → 2 ≤ phase.stage → phase.stage ≤ 4 →
      2 ≤ c.phase.stage ∧ c.phase.stage ≤ 4)
    (hlive : (t.setPhase i phase).Live j k) : t.Live j k := by
  rw [live_setPhase hc] at hlive
  split at hlive
  · next hij =>
    subst hij
    obtain ⟨hkey, hact, hlow, hhigh, hdrop⟩ := hlive
    obtain ⟨hlow', hhigh'⟩ := hstage hact hlow hhigh
    exact ⟨c, hc, hkey, hact, hlow', hhigh', hdrop⟩
  · exact hlive

theorem live_of_live_cancel (hlive : (t.modify i Call.cancel).Live j k) : t.Live j k := by
  obtain ⟨c', hc', hrest⟩ := hlive
  obtain ⟨c, hc, rfl⟩ := exists_of_modify hc'
  refine ⟨c, hc, ?_⟩
  split at hrest <;> exact hrest

section Exact

variable (hexact : t.Exact)
include hexact

theorem Exact.of_live (h' : Inv t') (hreqs : t'.requests = t.requests)
    (hlive : ∀ j k, t'.Live j k → t.Live j k) : t'.Exact := by
  refine h'.exact_iff.mpr fun j k hj => ?_
  rw [hreqs]
  exact (hexact j k).mpr (hlive j k hj)

theorem Exact.setPhase {phase : Phase} (h' : Inv (t.setPhase i phase)) (hc : t.calls[i]? = some c)
    (hstage : c.request.action = .execute → 2 ≤ phase.stage → phase.stage ≤ 4 →
      2 ≤ c.phase.stage ∧ c.phase.stage ≤ 4) : (t.setPhase i phase).Exact :=
  hexact.of_live h' rfl fun _ _ => live_of_live_setPhase hc hstage

theorem Exact.add (hc : t.calls[i]? = some c) (hfree : t.requests.lookup c.request.key = none)
    (h' : Inv t')
    (heq : t' = { t with requests := t.requests.insert c.request.key i }.setPhase i .executing) :
    t'.Exact := by
  subst heq
  refine h'.exact_iff.mpr fun j k hj => ?_
  change (t.setPhase i .executing).Live j k at hj
  rw [live_setPhase hc] at hj
  change (t.requests.insert c.request.key i).lookup k = some j
  rw [lookup_insert_eq]
  split at hj
  · next hij => rw [if_pos hj.1.symm, hij]
  have hold := (hexact j k).mpr hj
  rw [if_neg, hold]
  rintro rfl
  rw [hfree] at hold
  cases hold

theorem Exact.dropped (hi : t.requests.lookup c.request.key = some i)
    (h' : Inv (t.dropped i c.request.key)) : (t.dropped i c.request.key).Exact := by
  refine h'.exact_iff.mpr fun j k hj => ?_
  obtain ⟨c', hc', hkey, hact, hlow, hhigh, hdrop⟩ := hj
  obtain ⟨c₀, hc₀, rfl⟩ := exists_of_modify hc'
  have hij : i ≠ j := by
    rintro rfl
    rw [if_pos rfl] at hdrop
    cases hdrop
  rw [if_neg hij] at hkey hact hlow hhigh hdrop
  have hold := (hexact j k).mpr ⟨c₀, hc₀, hkey, hact, hlow, hhigh, hdrop⟩
  change (t.requests.erase c.request.key).lookup k = some j
  rw [lookup_erase_eq, if_neg, hold]
  rintro rfl
  exact hij (some.inj (hi.symm.trans hold))

theorem Exact.remove (hown : ∀ j, t.requests.lookup c.request.key = some j → j = i)
    (hc : t.calls[i]? = some c) (h' : Inv t')
    (heq : t' = { t with requests := t.requests.erase c.request.key }.setPhase i .returned) :
    t'.Exact := by
  subst heq
  refine h'.exact_iff.mpr fun j k hj => ?_
  change (t.setPhase i .returned).Live j k at hj
  rw [live_setPhase hc] at hj
  change (t.requests.erase c.request.key).lookup k = some j
  rw [lookup_erase_eq]
  split at hj
  · next hij => simp at hj
  · next hij =>
    have hold := (hexact j k).mpr hj
    rw [if_neg, hold]
    rintro rfl
    exact hij (hown j hold).symm

end Exact

theorem exact_empty : empty.Exact := by
  refine inv_empty.exact_iff.mpr fun j k hj => ?_
  obtain ⟨c, hc, -⟩ := hj
  simp [empty] at hc

/-- Nothing is added under the key of a request that was dropped and whose handler has not
returned. -/
def AddsAlone (t : Tasklet) : Step → Prop
  | .handle i .add => ∀ c ∈ t.calls[i]?, ∀ d ∈ t.calls,
      d.request.key = c.request.key → d.dropped = true → d.phase = .returned
  | _ => True

instance (t : Tasklet) (a : Step) : Decidable (t.AddsAlone a) := by
  unfold AddsAlone
  split <;> infer_instance

def Lingers (t : Tasklet) (j : ℕ) (k : String) : Prop :=
  ∃ c, t.calls[j]? = some c ∧ c.request.key = k ∧ c.dropped = true ∧ c.phase ≠ .returned

def Vacant (t : Tasklet) : Prop := ∀ j k, t.Lingers j k → t.requests.lookup k = none

theorem Vacant.mono (hv : t.Vacant) (hlingers : ∀ j k, t'.Lingers j k → t.Lingers j k)
    (hfree : ∀ k, t.requests.lookup k = none → t'.requests.lookup k = none) : t'.Vacant :=
  fun j k hj => hfree k (hv j k (hlingers j k hj))

theorem lookup_erase_of_none (h : t.requests.lookup k = none) (key : String) :
    (t.requests.erase key).lookup k = none := by
  rw [lookup_erase_eq, h]
  exact ite_self none

theorem lingers_of_setPhase (hc : t.calls[i]? = some c) (hphase : c.phase ≠ .returned)
    (phase : Phase) (hj : (t.setPhase i phase).Lingers j k) : t.Lingers j k := by
  obtain ⟨c', hc', hkey, hdrop, hne⟩ := hj
  obtain ⟨c₀, hc₀, rfl⟩ := exists_of_modify hc'
  split at hkey
  · next hij =>
    subst hij
    rw [if_pos rfl] at hdrop
    cases some.inj (hc₀.symm.trans hc)
    exact ⟨c, hc, hkey, hdrop, hphase⟩
  · next hij =>
    rw [if_neg hij] at hdrop hne
    exact ⟨c₀, hc₀, hkey, hdrop, hne⟩

theorem lingers_of_cancel (hj : (t.modify i Call.cancel).Lingers j k) : t.Lingers j k := by
  obtain ⟨c', hc', hrest⟩ := hj
  obtain ⟨c, hc, rfl⟩ := exists_of_modify hc'
  refine ⟨c, hc, ?_⟩
  split at hrest <;> exact hrest

section

variable (hv : t.Vacant)
include hv

theorem Vacant.cancel : (t.modify i Call.cancel).Vacant :=
  hv.mono (fun _ _ => lingers_of_cancel) fun _ hk => hk

theorem Vacant.setPhase (hc : t.calls[i]? = some c) (hphase : c.phase ≠ .returned)
    (phase : Phase) : (t.setPhase i phase).Vacant :=
  hv.mono (fun _ _ => lingers_of_setPhase hc hphase phase) fun _ hk => hk

theorem Vacant.add (hc : t.calls[i]? = some c) (hphase : c.phase ≠ .returned)
    (halone : ∀ d ∈ t.calls, d.request.key = c.request.key → d.dropped = true →
      d.phase = .returned) :
    (({ t with requests := t.requests.insert c.request.key i }).setPhase i .executing).Vacant := by
  intro j k hj
  have hold : t.Lingers j k := lingers_of_setPhase hc hphase .executing hj
  change (t.requests.insert c.request.key i).lookup k = none
  rw [lookup_insert_eq, if_neg, hv j k hold]
  rintro rfl
  obtain ⟨d, hd, hkey, hdrop, hne⟩ := hold
  exact hne (halone d (mem_of_getElem? hd) hkey hdrop)

theorem Vacant.dropped (hc : t.calls[i]? = some c) : (t.dropped i c.request.key).Vacant := by
  rintro j k ⟨c', hc', hkey, hdrop, hne⟩
  obtain ⟨c₀, hc₀, rfl⟩ := exists_of_modify hc'
  change (t.requests.erase c.request.key).lookup k = none
  split at hkey
  · next hij =>
    subst hij
    cases some.inj (hc₀.symm.trans hc)
    rw [← hkey, lookup_erase_eq]
    exact if_pos rfl
  · next hij =>
    rw [if_neg hij] at hdrop hne
    exact lookup_erase_of_none (hv j k ⟨c₀, hc₀, hkey, hdrop, hne⟩) _

theorem Vacant.fires (h : Inv t) (ht : Fires t a t') (ha : t.AddsAlone a) : t'.Vacant := by
  cases ht with
  | receive =>
    refine hv.mono (fun j k hj => ?_) fun _ hk => hk
    obtain ⟨c, hc, hkey, hdrop, hne⟩ := hj
    rcases call_of_received hc with hold | ⟨-, rfl⟩
    · exact ⟨c, hold, hkey, hdrop, hne⟩
    · cases hdrop
  | refuse hc hphase | accept hc hphase | duplicate hc hphase | execute hc hphase =>
    exact hv.setPhase hc (by simp [hphase]) _
  | add hc hphase => exact hv.add hc (by simp [hphase]) (ha _ hc)
  | answer hc hphase | lose hc hphase => exact hv.setPhase hc (by simp [hphase]) _
  | send hc hphase => exact Vacant.setPhase (t := t.sent _) hv hc (by simp [hphase]) _
  | remove hc hphase =>
    exact (hv.setPhase hc (by simp [hphase]) .returned).mono (fun _ _ hj => hj)
      fun _ hk => lookup_erase_of_none hk _
  | @cancel i c hc hphase hact hit hhit =>
    rcases hhit with ⟨-, rfl⟩ | ⟨i', hk, rfl⟩
    · exact hv.setPhase hc (by simp [hphase]) _
    have hc' := h.call_cancel hc (by simp [hphase]) hk
    exact hv.cancel.setPhase hc' (by simp [hphase]) _
  | cancelTask jobRequestID taskType hhit =>
    rcases hhit with ⟨-, rfl⟩ | ⟨i', -, rfl⟩
    · exact hv
    · exact hv.cancel
  | passJob => exact hv
  | cancelJob hstop hi hc => exact hv.dropped hc

/-- `Remove` does not take out the entry of another request. -/
theorem Vacant.removesOwn (h : Inv t) (hexact : t.Exact) (hc : t.calls[i]? = some c)
    (hphase : c.phase = .returning) (hj : t.requests.lookup c.request.key = some j) : j = i := by
  cases hdrop : c.dropped with
  | true =>
    have hnone := hv i _ ⟨c, hc, rfl, hdrop, by simp [hphase]⟩
    rw [hnone] at hj
    cases hj
  | false =>
    have hact := h.executes i c hc (.inr hphase)
    have hlive : t.Live i c.request.key :=
      ⟨c, hc, rfl, hact, by simp [hphase], by simp [hphase], hdrop⟩
    exact some.inj (hj.symm.trans ((hexact i _).mpr hlive))

theorem Vacant.exact_fires (h : Inv t) (hexact : t.Exact) (ht : Fires t a t') : t'.Exact := by
  have h' := h.fires ht
  cases ht with
  | receive =>
    refine hexact.of_live h' rfl fun j k hj => ?_
    obtain ⟨c, hc, hkey, hact, hlow, hrest⟩ := hj
    rcases call_of_received hc with hold | ⟨-, rfl⟩
    · exact ⟨c, hold, hkey, hact, hlow, hrest⟩
    · exact absurd hlow (Nat.not_succ_le_zero 1)
  | refuse hc | accept hc | duplicate hc => exact hexact.setPhase h' hc (by simp)
  | add hc hphase hfree => exact hexact.add hc hfree h' rfl
  | execute hc hphase | lose hc hphase => exact hexact.setPhase h' hc (by simp [hphase])
  | answer hc hphase hact => exact hexact.setPhase h' hc (by simp [hact])
  | send hc hphase => exact Exact.setPhase (t := t.sent _) hexact h' hc (by simp [hphase])
  | remove hc hphase =>
    exact hexact.remove (fun _ hj => hv.removesOwn h hexact hc hphase hj) hc h' rfl
  | @cancel i c hc hphase hact hit hhit =>
    rcases hhit with ⟨-, rfl⟩ | ⟨i', hk, rfl⟩
    · exact hexact.setPhase h' hc (by simp [hact])
    have hc' := h.call_cancel hc (by simp [hphase]) hk
    refine hexact.of_live h' rfl fun j k hj => ?_
    refine live_of_live_cancel (live_of_live_setPhase hc' ?_ hj)
    simp [hact]
  | cancelTask jobRequestID taskType hhit =>
    rcases hhit with ⟨-, rfl⟩ | ⟨i', -, rfl⟩
    · exact hexact
    · exact hexact.of_live h' rfl fun j k => live_of_live_cancel
  | passJob => exact hexact
  | cancelJob hstop hi hc => exact hexact.dropped (h.keyed.entry hi hc).1 h'

end

/-- Every registered task is in the allocation of its job. -/
def ListsAll (t : Tasklet) (allocations : FinMap String Resource.AntAllocation) : Prop :=
  ∀ i c, t.Registered i → t.calls[i]? = some c →
    ∃ alloc, allocations.lookup c.request.jobRequestID = some alloc ∧
      (alloc.taskTypes.lookup c.request.taskType).isSome

def OnePerJob (t : Tasklet) : Prop :=
  ∀ i j c d, t.Registered i → t.calls[i]? = some c → t.Registered j → t.calls[j]? = some d →
    c.request.jobRequestID = d.request.jobRequestID → i = j

theorem isSome_lookup_newAntAllocation (antID antTopic requestID taskType task : String)
    (now : Time) :
    ((Resource.newAntAllocation antID antTopic requestID taskType now).taskTypes.lookup
      task).isSome ↔ task = taskType := by
  rw [AList.lookup_isSome]
  exact mem_singleton

theorem lookup_getAllocations (t : Tasklet) (antID antTopic : String) (now : Time)
    (order : List ℕ) (hi : i ∈ order) (hc : t.calls[i]? = some c) :
    ∃ j d, j ∈ order ∧ t.calls[j]? = some d ∧ d.request.jobRequestID = c.request.jobRequestID ∧
      (t.getAllocations antID antTopic now order).lookup c.request.jobRequestID =
        some (Resource.newAntAllocation antID antTopic c.request.jobRequestID d.request.taskType
          now) := by
  induction order using reverseRecOn with
  | nil => cases hi
  | append_singleton order l ih =>
    unfold getAllocations at ih ⊢
    rw [foldl_append, foldl_cons, foldl_nil]
    by_cases hl : ∃ d, t.calls[l]? = some d ∧ d.request.jobRequestID = c.request.jobRequestID
    · obtain ⟨d, hd, hjob⟩ := hl
      refine ⟨l, d, mem_append_right _ (mem_singleton_self l), hd, hjob, ?_⟩
      rw [hd]
      rw [lookup_insert_eq, if_pos hjob.symm, hjob]
    have hmem : i ∈ order := by
      rcases mem_append.mp hi with hmem | hlast
      · exact hmem
      rw [mem_singleton.mp hlast] at hc
      exact absurd ⟨c, hc, rfl⟩ hl
    obtain ⟨j, d, hj, hd, hjob, hlook⟩ := ih hmem
    refine ⟨j, d, mem_append_left _ hj, hd, hjob, ?_⟩
    cases hd' : t.calls[l]? with
    | none => exact hlook
    | some d' =>
      rw [lookup_insert_eq, if_neg, hlook]
      intro heq
      exact hl ⟨d', hd', heq.symm⟩

theorem listsAll_iff (h : Inv t) (antID antTopic : String) (now : Time) {order : List ℕ}
    (hperm : order.Perm t.requests.values) :
    t.ListsAll (t.getAllocations antID antTopic now order) ↔ t.OnePerJob := by
  have hmem : ∀ i, i ∈ order ↔ t.Registered i := fun i => hperm.mem_iff
  constructor
  · intro hlists i j c d hi hc hj hd hjob
    obtain ⟨j₁, d₁, -, -, -, hlook⟩ :=
      t.lookup_getAllocations antID antTopic now order ((hmem i).mpr hi) hc
    have htype : ∀ i' c', t.Registered i' → t.calls[i']? = some c' →
        c'.request.jobRequestID = c.request.jobRequestID →
        c'.request.taskType = d₁.request.taskType := by
      intro i' c' hi' hc' hjob'
      obtain ⟨alloc, halloc, htask⟩ := hlists i' c' hi' hc'
      rw [hjob', hlook] at halloc
      cases halloc
      exact (isSome_lookup_newAntAllocation ..).mp htask
    have hkey : c.request.key = d.request.key := by
      rw [Request.key, Request.key, hjob, htype i c hi hc rfl, htype j d hj hd hjob.symm]
    have hi' := (h.keyed.entry hi hc).1
    have hj' := (h.keyed.entry hj hd).1
    rw [hkey] at hi'
    exact some.inj (hi'.symm.trans hj')
  · intro hone i c hi hc
    obtain ⟨j, d, hj, hd, hjob, hlook⟩ :=
      t.lookup_getAllocations antID antTopic now order ((hmem i).mpr hi) hc
    have hij := hone i j c d hi hc ((hmem j).mp hj) hd hjob.symm
    subst hij
    cases some.inj (hd.symm.trans hc)
    exact ⟨_, hlook, (isSome_lookup_newAntAllocation ..).mpr rfl⟩

/-- The registry has exactly the requests under way throughout a run if nothing is added under the
key of a request that was dropped before its handler has returned. The allocations, in whatever
order the requests come, list all the registered tasks if and only if there is one for each job. -/
theorem registry_reports (as : List Step) :
    (system.Meets AddsAlone empty as → system.Along Exact empty as) ∧
    ∀ t, system.runWith (fun _ _ => True) empty as = some t →
      ∀ (antID antTopic : String) (now : Time) (order : List ℕ), order.Perm t.requests.values →
        (t.ListsAll (t.getAllocations antID antTopic now order) ↔ t.OnePerJob) := by
  refine ⟨fun halone => ?_, fun t hrun antID antTopic now order hperm => ?_⟩
  · have hempty : Inv empty ∧ empty.Exact ∧ empty.Vacant := by
      refine ⟨inv_empty, exact_empty, ?_⟩
      rintro j k ⟨c, hc, -⟩
      simp [empty] at hc
    refine TransitionSystem.along_of_meets (I := fun s => Inv s ∧ s.Exact ∧ s.Vacant)
      (fun _ h => h.2.1) ?_ hempty halone
    rintro s a s' ⟨hinv, hexact, hv⟩ ha hstep
    have ht := fires_of_step hinv.keyed hstep
    exact ⟨hinv.fires ht, hv.exact_fires hinv hexact ht, hv.fires hinv ht ha⟩
  · have h : Inv t := inv_of_reachable (TransitionSystem.ReachableWith.runWith (.init rfl) hrun)
    exact listsAll_iff h antID antTopic now hperm

def deployTwice : List Step :=
  [.receive .execute "1" "deploy" "a" "replies", .handle 0 (.preExecute true), .handle 0 .add,
    .cancelJob "1" [0], .handle 0 (.execute (.error "cancelled")), .handle 0 .respond,
    .handle 0 .remove, .receive .execute "1" "deploy" "b" "replies",
    .handle 1 (.preExecute true), .handle 1 .add]

theorem registry_reports_deployTwice : system.Along Exact empty deployTwice ∧
    ∃ t, system.runWith (fun _ _ => True) empty deployTwice = some t ∧
      (t.ListsAll (t.getAllocations "ant" "topic" 0 [1]) ↔ t.OnePerJob) :=
  ⟨(registry_reports deployTwice).1 (by decide), _, rfl,
    (registry_reports deployTwice).2 _ rfl "ant" "topic" 0 [1] (by decide)⟩

/-- The request is added while the handler of the one that was dropped has not returned. -/
def deployOver : List Step :=
  [.receive .execute "1" "deploy" "a" "replies", .handle 0 (.preExecute true), .handle 0 .add,
    .cancelJob "1" [0], .receive .execute "1" "deploy" "b" "replies",
    .handle 1 (.preExecute true), .handle 1 .add, .handle 0 (.execute (.error "cancelled")),
    .handle 0 .respond, .handle 0 .remove]

def buildAndDeploy : List Step :=
  [.receive .execute "1" "build" "a" "replies", .handle 0 (.preExecute true), .handle 0 .add,
    .receive .execute "1" "deploy" "b" "replies", .handle 1 (.preExecute true), .handle 1 .add]

/-- The second deployment is under way and not in the registry, which is empty; of the tasks of a
job one is in the allocations. -/
theorem registry_misses : (∃ t, system.runWith (fun _ _ => True) empty deployOver = some t ∧
      t.calls[1]?.map (fun c => (c.phase, c.dropped)) = some (.executing, false) ∧
      t.count = 0) ∧
    ∃ t, system.runWith (fun _ _ => True) empty buildAndDeploy = some t ∧
      t.Registered 0 ∧ t.Registered 1 ∧
      ((t.getAllocations "ant" "topic" 0 [0, 1]).lookup "1").map (fun alloc =>
        alloc.taskTypes.keys) = some ["deploy"] :=
  ⟨⟨_, rfl, by decide, by decide⟩, _, rfl, by decide, by decide, by decide⟩

end Formicary.Tasklet

import Formicary.Verification.Stats.Underway

/-! # The concurrency counter

The counter of a key and the ids listed for its user agree with the runs under way as long as
every step tells the registry what it does to the run of its request. -/

namespace Formicary

open RequestState JobStatsRegistry Database Table List

namespace JobStatsRegistry.Call

def of : Bool → Bool → Call
  | false, true => started
  | true, false => ended
  | _, _ => silent

theorem toInt_add_delta_iff {c : Int32} {n n' : ℕ} {was now : Bool} (call : Call)
    (hc : c.toInt = n) (hn : n' + was.toNat = n + now.toNat) :
    (c + call.delta).toInt = n' ↔ call = of was now ∧ (call = started → n + 1 < 2 ^ 31) := by
  have hlt := Int32.toInt_lt c
  have h0 : silent.delta.toInt = 0 := by decide
  have h1 : started.delta.toInt = 1 := by decide
  have h2 : ended.delta.toInt = -1 := by decide
  have hsmall : -1 ≤ call.delta.toInt ∧ call.delta.toInt ≤ 1 := by cases call <;> decide
  have hbmod : (c + call.delta).toInt = n' ↔
      n + call.delta.toInt = n' ∧ n + call.delta.toInt < 2 ^ 31 := by
    rw [Int32.toInt_add, hc, Int.bmod_def]
    split <;> omega
  rw [hbmod]
  cases call <;> cases was <;> cases now <;> simp [of, h0, h1, h2] at hn ⊢ <;> omega

end JobStatsRegistry.Call

namespace JobManager

def attributed (s : JobManager) (userID key : String) : ℕ :=
  (counted s.stats.countByUser userID).keys.countP fun id =>
    (s.db.requests.find? id).any fun req => req.getUserJobTypeKey == key

/-- The counter of every key counts the runs under way, and so do the ids listed for the user if
all requests of the key are theirs. -/
def Exact (s : JobManager) : Prop :=
  ∀ key, 0 ≤ (s.stats.getExecutionCount key).toInt ∧
    (s.stats.getExecutionCount key).toInt = s.db.underwayCount key ∧
    ∀ userID, userID ≠ "" →
      (∀ req ∈ s.db.requests, req.getUserJobTypeKey = key → req.userID = userID) →
      (s.stats.getExecutionCount key).toInt = s.attributed userID key

def Counts (s : JobManager) : Prop :=
  ∀ key, (s.stats.getExecutionCount key).toInt = s.db.underwayCount key

def Follows (db : Database) (job : SupervisedJob) : Prop :=
  ∃ req, db.requests.find? job.request.id = some req ∧ req.jobExecutionID = some job.execution.id ∧
    job.execution.summary.identity = req.summary.identity

/-- What holds in runs whose steps all tell the registry what they do. -/
structure Sound (s : JobManager) : Prop where
  named : ∀ req ∈ s.db.requests, req.id ≠ ""
  paired : ∀ req ∈ s.db.requests, Paired s.db req
  followed : ∀ job ∈ s.supervisors, Follows s.db job
  events : s.events = []
  counts : s.Counts
  listed : ∀ userID id, userID ≠ "" → (id ∈ counted s.stats.countByUser userID ↔
    ∃ req ∈ s.db.requests, req.id = id ∧ req.userID = userID ∧ s.db.isUnderway req = true)

variable {s s' : JobManager} {req req' : JobRequest}

theorem Sound.attributed_eq (hs : s.Sound) {userID key : String} (hu : userID ≠ "")
    (hall : ∀ req ∈ s.db.requests, req.getUserJobTypeKey = key → req.userID = userID) :
    s.attributed userID key = s.db.underwayCount key := by
  unfold attributed underwayCount affected
  rw [countP_eq_length_filter, countP_eq_length_filter, ← length_map (f := JobRequest.id)]
  apply List.Perm.length_eq
  rw [perm_ext_iff_of_nodup ((AList.keys_nodup _).filter _)
    (s.db.requests.nodup.sublist (filter_sublist.map JobRequest.id))]
  intro id
  rw [mem_filter, mem_map, ← AList.mem_keys, hs.listed userID id hu]
  constructor
  · rintro ⟨⟨req, hreq, rfl, huser, hway⟩, hkey⟩
    rw [find?_eq_some_iff.mpr ⟨hreq, rfl⟩, Option.any_some] at hkey
    exact ⟨req, mem_filter.mpr ⟨hreq, by simp [hway, beq_iff_eq.mp hkey]⟩, rfl⟩
  · rintro ⟨req, hreq, rfl⟩
    obtain ⟨hreq, hsel⟩ := mem_filter.mp hreq
    simp only [Bool.and_eq_true, beq_iff_eq] at hsel
    refine ⟨⟨req, hreq, rfl, hall req hreq hsel.1, hsel.2⟩, ?_⟩
    rw [find?_eq_some_iff.mpr ⟨hreq, rfl⟩, Option.any_some, beq_iff_eq]
    exact hsel.1

theorem Sound.exact (hs : s.Sound) : s.Exact := by
  intro key
  have hcount := hs.counts key
  refine ⟨by omega, hcount, fun userID hu hall => ?_⟩
  rw [hs.attributed_eq hu hall, hcount]

theorem Exact.counts (h : s.Exact) : s.Counts := fun key => (h key).2.1

theorem Sound.counts_iff (hs : s.Sound) (hdb : Replaces s.db s'.db req req') {call : Call}
    (hshift : Shifts s.stats s'.stats req.getUserJobTypeKey call) :
    s'.Counts ↔ call = .of (s.db.isUnderway req) (s'.db.isUnderway req') ∧
      (call = .started → s.db.underwayCount req.getUserJobTypeKey + 1 < 2 ^ 31) := by
  have hown := hdb.underwayCount_eq hs.paired req.getUserJobTypeKey
  simp only [beq_self_eq_true, Bool.true_and] at hown
  have hiff := Call.toInt_add_delta_iff call (hs.counts req.getUserJobTypeKey) hown
  rw [← hiff]
  have hcount := hshift req.getUserJobTypeKey
  rw [if_pos rfl] at hcount
  constructor
  · intro hcnt
    rw [← hcount]
    exact hcnt req.getUserJobTypeKey
  · intro hright key
    by_cases hkey : key = req.getUserJobTypeKey
    · rw [hkey, hcount]
      exact hright
    have hsame := hdb.underwayCount_eq hs.paired key
    have hne : (req.getUserJobTypeKey == key) = false := by simpa using Ne.symm hkey
    simp only [hne, Bool.false_and, Bool.toNat_false, Nat.add_zero] at hsame
    have hcount' := hshift key
    rw [if_neg hkey, Int32.add_zero] at hcount'
    rw [hcount', hsame]
    exact hs.counts key

theorem Sound.follows_of_replaces (hdb : Replaces s.db s'.db req req')
    (hid : req.jobExecutionID = none ∨ req'.jobExecutionID = req.jobExecutionID)
    {job : SupervisedJob} (hjob : Follows s.db job) : Follows s'.db job := by
  obtain ⟨r, hfind, hexec, hident⟩ := hjob
  obtain ⟨hr, hrid⟩ := find?_eq_some_iff.mp hfind
  by_cases hsame : r.id = req.id
  · have hreq : r = req := eq_of_key_eq hr hdb.mem hsame
    subst hreq
    refine ⟨req', find?_eq_some_iff.mpr ⟨hdb.mem_self, hdb.id_eq.trans hrid⟩, ?_,
      hident.trans hdb.identity.symm⟩
    rcases hid with hnone | heq
    · rw [hnone] at hexec
      cases hexec
    · rw [heq, hexec]
  · exact ⟨r, find?_eq_some_iff.mpr ⟨hdb.mem_requests.mpr (.inr ⟨hr, hsame⟩), hrid⟩, hexec, hident⟩

theorem Sound.listed_of_replaces (hs : s.Sound) (hdb : Replaces s.db s'.db req req')
    (henters : Enters s.stats s'.stats req.userID req.id
      (.of (s.db.isUnderway req) (s'.db.isUnderway req'))) (userID id : String) (hu : userID ≠ "") :
    id ∈ counted s'.stats.countByUser userID ↔
      ∃ r ∈ s'.db.requests, r.id = id ∧ r.userID = userID ∧ s'.db.isUnderway r = true := by
  -- the entries of other requests are not touched
  obtain ⟨rest, hrest⟩ : ∃ rest, rest ↔ ∃ r ∈ s.db.requests, r.id ≠ req.id ∧ r.id = id ∧
      r.userID = userID ∧ s.db.isUnderway r = true := ⟨_, Iff.rfl⟩
  have hnew : (∃ r ∈ s'.db.requests, r.id = id ∧ r.userID = userID ∧ s'.db.isUnderway r = true) ↔
      req.id = id ∧ req.userID = userID ∧ s'.db.isUnderway req' = true ∨ rest := by
    rw [hrest]
    constructor
    · rintro ⟨r, hr, h₁, h₂, h₃⟩
      rcases hdb.mem_requests.mp hr with rfl | ⟨hr, hne⟩
      · exact .inl ⟨hdb.id_eq ▸ h₁, hdb.userID_eq ▸ h₂, h₃⟩
      · exact .inr ⟨r, hr, hne, h₁, h₂, hdb.isUnderway_other hs.paired hr hne ▸ h₃⟩
    · rintro (⟨h₁, h₂, h₃⟩ | ⟨r, hr, hne, h₁, h₂, h₃⟩)
      · exact ⟨req', hdb.mem_self, hdb.id_eq.trans h₁, hdb.userID_eq.trans h₂, h₃⟩
      · exact ⟨r, hdb.mem_requests.mpr (.inr ⟨hr, hne⟩), h₁, h₂,
          (hdb.isUnderway_other hs.paired hr hne).trans h₃⟩
  have hold : id ∈ counted s.stats.countByUser userID ↔
      req.id = id ∧ req.userID = userID ∧ s.db.isUnderway req = true ∨ rest := by
    rw [hs.listed userID id hu, hrest]
    constructor
    · rintro ⟨r, hr, h₁, h₂, h₃⟩
      by_cases hne : r.id = req.id
      · rw [eq_of_key_eq hr hdb.mem hne] at h₁ h₂ h₃
        exact .inl ⟨h₁, h₂, h₃⟩
      · exact .inr ⟨r, hr, hne, h₁, h₂, h₃⟩
    · rintro (⟨h₁, h₂, h₃⟩ | ⟨r, hr, _, h₁, h₂, h₃⟩)
      · exact ⟨req, hdb.mem, h₁, h₂, h₃⟩
      · exact ⟨r, hr, h₁, h₂, h₃⟩
  have hother : rest → id ≠ req.id := by
    rw [hrest]
    rintro ⟨r, _, hne, rfl, _⟩
    exact hne
  rw [henters userID id hu, hnew]
  cases hwas : s.db.isUnderway req <;> cases hnow : s'.db.isUnderway req' <;>
    simp only [Call.of, hold, hwas, Bool.false_eq_true, and_true, and_false, false_or]
  · exact or_congr_left ⟨fun h => ⟨h.2.symm, h.1.symm⟩, fun h => ⟨h.2.symm, h.1.symm⟩⟩
  constructor
  · rintro ⟨⟨rfl, rfl⟩ | h, hne⟩
    · exact absurd ⟨rfl, rfl⟩ hne
    · exact h
  · exact fun h => ⟨.inr h, fun he => hother h he.2⟩

theorem Sound.replace (hs : s.Sound) (hdb : Replaces s.db s'.db req req') {call : Call}
    (hcalls : Calls s.stats s'.stats req.summary call) (hcnt : s'.Counts)
    (hpair : Paired s'.db req')
    (hid : req.jobExecutionID = none ∨ req'.jobExecutionID = req.jobExecutionID)
    (hsups : ∀ job ∈ s'.supervisors, job ∈ s.supervisors ∨ Follows s'.db job)
    (hevs : s'.events = []) : s'.Sound where
  named := by
    intro r hr
    rcases hdb.mem_requests.mp hr with rfl | ⟨hr, _⟩
    · exact hdb.id_eq ▸ hs.named req hdb.mem
    · exact hs.named r hr
  paired := hdb.paired hs.paired hpair
  followed := by
    intro job hjob
    rcases hsups job hjob with hold | hnew
    · exact follows_of_replaces hdb hid (hs.followed job hold)
    · exact hnew
  events := hevs
  counts := hcnt
  listed := by
    have hcall := ((hs.counts_iff hdb hcalls.shifts).mp hcnt).1
    exact hs.listed_of_replaces hdb (hcall ▸ hcalls.enters)

/-- The counters are exact after a step if and only if a condition holds, and with them all that
keeps them so. -/
structure ExactIff (s : JobManager) (p : Prop) : Prop where
  counts : s.Counts ↔ p
  sound : s.Counts → s.Sound

section ExactIff

variable {p q : Prop}

theorem ExactIff.congr (h : s.ExactIff p) (hpq : p ↔ q) : s.ExactIff q :=
  ⟨h.counts.trans hpq, h.sound⟩

theorem Sound.exactIff (hs : s.Sound) (hp : p) : s.ExactIff p :=
  ⟨iff_of_true hs.counts hp, fun _ => hs⟩

theorem exactIff_of_not (hnot : ¬ s.Counts) (hp : ¬ p) : s.ExactIff p :=
  ⟨iff_of_false hnot hp, fun h => absurd h hnot⟩

end ExactIff

end JobManager

end Formicary

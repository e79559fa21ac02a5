import Formicary.Library.Search
import Formicary.Model.CascadeCancel
import Formicary.Verification.Lifecycle.Changes
import Formicary.Verification.Supervisor.Machine

/-! # What a cascading cancellation reaches

The traversal is a breadth-first search along the requests that were active when it began: what it
does to a request makes no difference to the children of another. -/

namespace Formicary.JobManager

open RequestState JobRequestRepository List

variable {env : Surroundings} {db db' : Database}

def Untouched (ids : List String) (db db' : Database) : Prop :=
  ∃ f : JobRequest → JobRequest, db'.requests.rows = db.requests.rows.map f ∧
    ∀ req, (f req).id = req.id ∧ (req.id ∉ ids → f req = req)

theorem untouched_refl (ids : List String) (db : Database) : Untouched ids db db :=
  ⟨id, (map_id _).symm, fun _ => ⟨rfl, fun _ => rfl⟩⟩

theorem Untouched.trans {ids ids' : List String} {db'' : Database} (h : Untouched ids db db')
    (h' : Untouched ids' db' db'') : Untouched (ids ++ ids') db db'' := by
  obtain ⟨f, hrows, hf⟩ := h
  obtain ⟨g, hrows', hg⟩ := h'
  refine ⟨g ∘ f, by rw [hrows', hrows, map_map], fun req => ⟨?_, fun hid => ?_⟩⟩
  · exact ((hg (f req)).1).trans (hf req).1
  · rw [mem_append, not_or] at hid
    have hsame := (hf req).2 hid.1
    rw [Function.comp_apply, hsame]
    exact (hg req).2 hid.2

theorem untouched_cancel (db : Database) (qc : QueryContext) (id : String) (now : Time) :
    Untouched [id] db (Lifecycle.commit db (cancel db qc id now)) := by
  unfold cancel
  cases hload : cancelLoad db qc id with
  | error => exact untouched_refl _ _
  | ok loaded =>
    cases loaded with
    | none => exact untouched_refl _ _
    | some req =>
      have hid : req.id = id := by
        unfold JobRequestRepository.cancelLoad JobRequestRepository.get at hload
        grind [Table.find?_eq_some_iff]
      refine ⟨_, congrArg Table.rows (Lifecycle.cancelTransaction_requests db qc req now),
        fun row => ⟨?_, fun hne => if_neg fun hcanc => ?_⟩⟩
      · split <;> rfl
      · have hsame := Lifecycle.cancellable_id hcanc
        simp [hsame, hid] at hne

theorem untouched_cancelChild (env : Surroundings) (m : JobManager) (child : JobRequest) :
    Untouched [child.id] m.db (cancelChild env m child).db := by
  unfold cancelChild
  split
  · exact untouched_cancel m.db _ child.id env.now
  split
  · exact untouched_refl _ _
  · exact untouched_refl _ _

/-- The query for the children of a request, by their ids. -/
def activeIDs (env : Surroundings) (db : Database) (parentID : String) : List String :=
  if (env.findError parentID).isSome then []
  else
    ((findActiveChildRequests db parentID).toOption.getD []).map JobRequest.id

theorem Untouched.activeIDs {ids : List String} (h : Untouched ids db db') (env : Surroundings)
    (parentID : String) :
    (activeIDs env db' parentID).filter (· ∉ ids) =
      (activeIDs env db parentID).filter (· ∉ ids) := by
  obtain ⟨f, hrows, hf⟩ := h
  unfold JobManager.activeIDs findActiveChildRequests
  split
  · rfl
  split
  · rfl
  simp only [Except.toOption, Option.getD_some, hrows]
  have hid : JobRequest.id ∘ f = JobRequest.id := funext fun req => (hf req).1
  rw [filter_map, filter_map, filter_map, filter_map, map_map, hid, filter_filter, filter_filter]
  apply congrArg
  apply filter_congr
  intro req _
  by_cases hmem : req.id ∈ ids
  · simp [hmem, (hf req).1]
  · simp [hmem, (hf req).2 hmem]

/-- The traversal stands where a search along the requests of the beginning does. -/
structure Cascade.Follows (db : Database) (s : Cascade) (t : Search.State String) : Prop where
  visited : s.visited = t.found
  attempts : s.attempts = t.found
  queue : s.queue = t.queue
  untouched : Untouched s.visited db s.manager.db

variable {s : Cascade} {t : Search.State String}

theorem follows_visitChildren (h : Cascade.Follows db s t)
    (depth : ℕ) (children : List JobRequest) :
    Cascade.Follows db (children.foldl (visitChild env depth) s)
      ((children.map JobRequest.id).foldl (Search.visit depth) t) := by
  induction children generalizing s t with
  | nil => exact h
  | cons child children ih =>
    apply ih
    unfold visitChild Search.visit
    rw [← h.visited]
    split
    case isTrue => exact h
    case isFalse =>
      constructor
      · rw [h.visited]
      · rw [h.attempts, h.visited]
      · rw [h.queue]
      · exact h.untouched.trans (untouched_cancelChild env s.manager child)

theorem follows_step (h : Cascade.Follows db s t) : Cascade.Follows db (cascadeStep env s)
      (Search.step (activeIDs env db) cascadeCancelBFSMaxDepth t) := by
  unfold cascadeStep Search.step
  rw [← h.queue]
  cases hqueue : s.queue with
  | nil => exact h
  | cons head queue =>
    dsimp only
    have hpopped : Cascade.Follows db { s with queue := queue }
        { t with queue := queue, expanded := t.expanded ++ [head] } :=
      { h with queue := rfl }
    split
    case isTrue => exact hpopped
    case isFalse =>
      -- of the children of the beginning, those found already make no difference
      have hsame : (activeIDs env db head.1).foldl (Search.visit head.2)
            { t with queue := queue, expanded := t.expanded ++ [head] } =
          (activeIDs env s.manager.db head.1).foldl (Search.visit head.2)
            { t with queue := queue, expanded := t.expanded ++ [head] } := by
        have hfilt := h.untouched.activeIDs env head.1
        rw [h.visited] at hfilt
        rw [← Search.foldl_visit_filter, ← hfilt, Search.foldl_visit_filter]
      rw [hsame]
      unfold activeIDs
      cases env.findError head.1 with
      | some => exact hpopped
      | none =>
        cases findActiveChildRequests s.manager.db head.1 with
        | error => exact hpopped
        | ok children => exact follows_visitChildren hpopped head.2 children

theorem follows_loop (fuel : ℕ)
    (h : Cascade.Follows db s t) : Cascade.Follows db (cascadeLoop env fuel s)
      (Search.run (activeIDs env db) cascadeCancelBFSMaxDepth fuel t) := by
  induction fuel generalizing s t with
  | zero => exact h
  | succ fuel ih => exact ih (follows_step h)

/-- The requests forked with `cascade_cancel`, whatever state they are in. -/
def childIDs (db : Database) (parentID : String) : List String :=
  (db.requests.rows.filter fun req =>
    req.parentID == parentID && req.cascadeCancel).map JobRequest.id

/-- Within the depth there are so many links between two requests. -/
def Descends (next : String → List String) (rootParentID id : String) : Prop :=
  ∃ k, 1 ≤ k ∧ k ≤ 20 ∧ Search.Path next rootParentID id k

theorem mem_activeIDs {parentID id : String} (h : id ∈ activeIDs env db parentID) :
    ∃ req ∈ db.requests, req.id = id ∧ req.cascadeCancel = true := by
  unfold activeIDs findActiveChildRequests at h
  split at h
  · simp at h
  split at h
  · simp [Except.toOption] at h
  obtain ⟨req, hreq, rfl⟩ := mem_map.mp h
  simp only [Except.toOption, Option.getD_some, mem_filter, Bool.and_eq_true] at hreq
  exact ⟨req, hreq.1, rfl, hreq.2.1.2⟩

theorem cascade_spec {m : JobManager} {rootParentID : String}
    (hs : cascadeCancelToChildren env m rootParentID = s) :
    s.queue = [] ∧ s.attempts.Nodup ∧
      ∀ id, id ∈ s.attempts ↔ Descends (activeIDs env m.db) rootParentID id := by
  subst hs
  have hfol : Cascade.Follows m.db (cascadeCancelToChildren env m rootParentID)
      (Search.run (activeIDs env m.db) cascadeCancelBFSMaxDepth (m.db.requests.rows.length + 1)
        (Search.init rootParentID)) :=
    follows_loop _ ⟨rfl, rfl, rfl, untouched_refl _ _⟩
  have hall : ∀ parentID, activeIDs env m.db parentID ⊆ m.db.requests.rows.map JobRequest.id := by
    intro parentID id hid
    obtain ⟨req, hreq, rfl, -⟩ := mem_activeIDs hid
    exact mem_map_of_mem hreq
  have hfuel : (m.db.requests.rows.map JobRequest.id).length + 1 ≤
      m.db.requests.rows.length + 1 := by
    rw [length_map]
  obtain ⟨hqueue, hnodup, hfound⟩ :=
    Search.run_spec cascadeCancelBFSMaxDepth hall hfuel rootParentID
  rw [hfol.queue, hfol.attempts]
  exact ⟨hqueue, hnodup, hfound⟩

/-- The traversal ends, and tries to cancel each request at most once and none without
`cascade_cancel`. It leaves the root alone and comes to every other unfinished request within twenty
links if and only if links between unfinished requests do not lead back to the root, and do lead to
each of these requests. -/
theorem cascade_reaches_iff (env : Surroundings) (m : JobManager) (rootParentID : String) :
    (cascadeCancelToChildren env m rootParentID).queue = [] ∧
    (cascadeCancelToChildren env m rootParentID).attempts.Nodup ∧
    (∀ id ∈ (cascadeCancelToChildren env m rootParentID).attempts,
      ∃ req ∈ m.db.requests, req.id = id ∧ req.cascadeCancel = true) ∧
    ((rootParentID ∉ (cascadeCancelToChildren env m rootParentID).attempts ∧
        ∀ req ∈ m.db.requests, req.jobState.isTerminal = false → req.id ≠ rootParentID →
          Descends (childIDs m.db) rootParentID req.id →
            req.id ∈ (cascadeCancelToChildren env m rootParentID).attempts) ↔
      (¬ Descends (activeIDs env m.db) rootParentID rootParentID ∧
        ∀ req ∈ m.db.requests, req.jobState.isTerminal = false → req.id ≠ rootParentID →
          Descends (childIDs m.db) rootParentID req.id →
            Descends (activeIDs env m.db) rootParentID req.id)) := by
  obtain ⟨hqueue, hnodup, hmem⟩ := cascade_spec (rfl : cascadeCancelToChildren env m _ = _)
  refine ⟨hqueue, hnodup, ?_, ?_⟩
  · intro id hid
    obtain ⟨k, hpos, -, hpath⟩ := (hmem id).mp hid
    cases hpath with
    | nil => omega
    | snoc _ hlast =>
      obtain ⟨req, hreq, hid, hcasc⟩ := mem_activeIDs hlast
      exact ⟨req, hreq, hid, hcasc⟩
  · simp only [hmem]

def forked (id parentID : String) (state : RequestState) : JobRequest :=
  { JobSupervisor.readyRequest with
    id := id
    parentID := parentID
    jobState := state
    cascadeCancel := true }

def quietly : Surroundings := ⟨fun _ => none, fun _ => true, 0⟩

/-- The child of the root has completed, and its own child is still running. -/
def orphaned : JobManager :=
  { JobManager.new with
    db := { Database.empty with
      requests := ⟨[forked "r1" "" executing, forked "r2" "r1" completed,
        forked "r3" "r2" executing], by decide⟩ } }

def cyclic : JobManager :=
  { JobManager.new with
    db := { Database.empty with
      requests := ⟨[forked "r1" "r2" executing, forked "r2" "r1" executing], by decide⟩ } }

/-- Below a finished request nothing is cancelled, and a cycle leads back to the root. -/
theorem cascade_misses : (cascadeCancelToChildren quietly orphaned "r1").attempts = [] ∧
      Descends (childIDs orphaned.db) "r1" "r3" ∧
      (cascadeCancelToChildren quietly cyclic "r1").attempts = ["r2", "r1"] := by
  refine ⟨by decide, ⟨2, by decide, by decide, ?_⟩, by decide⟩
  have hchild : Search.Path (childIDs orphaned.db) "r1" "r2" 1 := .snoc .nil (by decide)
  exact hchild.snoc (by decide)

end Formicary.JobManager

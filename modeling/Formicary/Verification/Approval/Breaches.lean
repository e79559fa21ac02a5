import Formicary.Verification.Approval.Vote
import Formicary.Verification.Execution.Loading

/-! # Breached approval deadlines

The sweep reads and writes requests in a context made from empty identifiers, which is no
administrator's: it reaches the requests without a user and no others. -/

namespace Formicary.Approval

open RequestState JobExecutionRepository Table List Option QueryContext

/-- A deadline that the sweep finds, for a task that waits for approval, and whose action is to
decide. -/
structure Breached (db : Database) (now : Time) (a : Awaiting) (d : ApprovalDeadline) : Prop where
  request : db.requests.find? a.request.id = some a.request
  execution : db.executions.find? a.execution.id = some a.execution
  task : db.tasks.find? a.task.id = some a.task
  returned : d ∈ findBreachedDeadlines db now 100
  jobRequestID : d.jobRequestID = a.request.id
  taskExecutionID : d.taskExecutionID = a.task.id
  decides : d.timeoutAction = .autoApprove ∨ d.timeoutAction = .autoReject

/-- The rows of the wait are in order, and no other deadline that the sweep finds is for the
request. -/
structure Undisturbed (db : Database) (now : Time) (a : Awaiting) (d : ApprovalDeadline) :
    Prop where
  requestID : a.request.id ≠ ""
  executionID : a.execution.id ≠ ""
  executionActive : a.execution.active = true
  taskActive : a.task.active = true
  /-- no other active task of the execution has the type -/
  only : ∀ t ∈ db.tasks, t.jobExecutionID = a.execution.id → t.active = true →
    t.taskType = a.task.taskType → t.id = a.task.id
  /-- no other request has the execution -/
  own : ∀ r ∈ db.requests, r.jobExecutionID = some a.execution.id → r.id = a.request.id
  sole : ∀ d' ∈ findBreachedDeadlines db now 100, d'.jobRequestID = a.request.id → d' = d

def deadlineVerdict (d : ApprovalDeadline) : Verdict :=
  if d.timeoutAction = .autoApprove then .approve else .reject

/-- The task and the request are both in the state of the decision, and the deadline is resolved. -/
def Enforced (a : Awaiting) (d : ApprovalDeadline) (db : Database) : Prop :=
  (db.requests.find? a.request.id).map JobRequest.jobState = some (deadlineVerdict d).requestState ∧
    (db.tasks.find? a.task.id).map TaskExecution.taskState = some (deadlineVerdict d).taskState ∧
    (db.deadlines.find? d.id).map ApprovalDeadline.resolved = some true

variable {db db' db'' : Database} {now : Time} {a : Awaiting} {d d' : ApprovalDeadline}
  {c : VoteClock}

theorem sweepContext_scope (readonly : Bool) (userID orgID : String) :
    sweepContext.orgElseUserWhere readonly userID orgID = (userID == "") := by
  have hadmin : sweepContext.isAdmin = false := by decide
  have hread : sweepContext.isReadAdmin = false := by decide
  simp [orgElseUserWhere, userWhere, hadmin, hread]
  simp [sweepContext, newQueryContextFromIDs, newQueryContext]

/-- No deadline is lost, and resolved ones stay so. -/
def Lasts (t t' : Table ApprovalDeadline.id) : Prop :=
  ∀ k dl, t.find? k = some dl →
    ∃ dl', t'.find? k = some dl' ∧ (dl.resolved = true → dl'.resolved = true)

theorem Lasts.refl (t : Table ApprovalDeadline.id) : Lasts t t := fun _ dl hdl => ⟨dl, hdl, id⟩

theorem lasts_update {p : ApprovalDeadline → Bool} {f : ApprovalDeadline → ApprovalDeadline}
    (hf : ∀ dl, (f dl).id = dl.id) (hres : ∀ dl, dl.resolved = true → (f dl).resolved = true) :
    Lasts db.deadlines (db.deadlines.update p f hf) := by
  intro k dl hdl
  refine ⟨_, by rw [find?_update, hdl]; rfl, fun hresol => ?_⟩
  dsimp only
  split
  · exact hres dl hresol
  · exact hresol

/-- A step that leaves the rows of a wait alone. -/
structure Apart (a : Awaiting) (db db' : Database) : Prop where
  request : db'.requests.find? a.request.id = db.requests.find? a.request.id
  references : ∀ r' ∈ db'.requests, ∃ r ∈ db.requests, r.id = r'.id ∧
    r.jobExecutionID = r'.jobExecutionID
  execution : db'.executions.find? a.execution.id = db.executions.find? a.execution.id
  tasks : ∀ t, t.jobExecutionID = a.execution.id → (t ∈ db'.tasks ↔ t ∈ db.tasks)
  deadlines : Lasts db.deadlines db'.deadlines

theorem Apart.refl (a : Awaiting) (db : Database) : Apart a db db :=
  ⟨rfl, fun r hr => ⟨r, hr, rfl, rfl⟩, rfl, fun _ _ => Iff.rfl, .refl _⟩

theorem Apart.trans (h : Apart a db db') (h' : Apart a db' db'') : Apart a db db'' where
  request := h'.request.trans h.request
  references := by
    intro r'' hr''
    obtain ⟨r', hr', hid', href'⟩ := h'.references r'' hr''
    obtain ⟨r, hr, hid, href⟩ := h.references r' hr'
    exact ⟨r, hr, hid.trans hid', href.trans href'⟩
  execution := h'.execution.trans h.execution
  tasks t ht := (h'.tasks t ht).trans (h.tasks t ht)
  deadlines k dl hdl := by
    obtain ⟨dl', hdl', hres⟩ := h.deadlines k dl hdl
    obtain ⟨dl'', hdl'', hres'⟩ := h'.deadlines k dl' hdl'
    exact ⟨dl'', hdl'', fun h => hres' (hres h)⟩

def Own (a : Awaiting) (db : Database) : Prop :=
  ∀ r ∈ db.requests, r.jobExecutionID = some a.execution.id → r.id = a.request.id

theorem Own.apart (h : Own a db) (hapart : Apart a db db') : Own a db' := by
  intro r' hr' href'
  obtain ⟨r, hr, hid, href⟩ := hapart.references r' hr'
  exact hid ▸ h r hr (href.trans href')

theorem Apart.of_loads {id : String} {loaded : LoadedExecution} (h : Loads db id now loaded db')
    (hne : id ≠ a.execution.id) : Apart a db db' := by
  rw [h.tables]
  refine { Apart.refl a db with tasks := ?_ }
  intro t ht
  refine mem_update_of_unselected (Q := fun t : TaskExecution => t.jobExecutionID =
    a.execution.id) (by intro _; rfl) ?_ (fun _ hexec => hexec) ht
  intro t' ht' hexec
  rw [← Bool.not_eq_true, deactivated_iff ht']
  exact fun hstale => hne (hstale.1.symm.trans hexec)

variable {request : JobRequest}

theorem Apart.of_commits {taskType taskExecutionID : String}
    {verdict : Option (Verdict × QueryContext)}
    (h : Commits request taskType taskExecutionID db db' verdict)
    (hdls : Lasts db.deadlines db'.deadlines)
    (hne : request.id ≠ a.request.id) (hexec : request.jobExecutionID ≠ some a.execution.id) :
    Apart a db db' := by
  have hreq : ∀ qc : QueryContext, ∀ r ∈ db.requests, r.id = a.request.id →
      waitingRequest qc request r = false := by
    intro qc r _ hr
    simp [waitingRequest, hr, hne.symm]
  have htask : ∀ t ∈ db.tasks, t.jobExecutionID = a.execution.id →
      waitingTask request.jobExecutionID taskType t = false := by
    intro t _ ht
    simp [waitingTask, ht, hexec.symm]
  have hrefs := h.references
  cases h with
  | nothing hr he ht =>
    exact ⟨by rw [hr], hrefs, by rw [he], fun t _ => by rw [ht], hdls⟩
  | approve qc decidedBy comments time h =>
    subst h
    refine ⟨find?_update_of_unselected (hreq qc), hrefs, rfl, ?_, hdls⟩
    intro t ht
    exact mem_update_of_unselected (by intro _; rfl) htask (fun _ hb => hb) ht
  | reject qc decidedBy comments userKey time h =>
    subst h
    refine ⟨find?_update_of_unselected (hreq qc), hrefs, ?_, ?_, hdls⟩
    · refine find?_update_of_unselected ?_
      intro e _ he
      simp [he, hexec.symm]
    · intro t ht
      exact mem_update_of_unselected (by intro _; rfl) htask (fun _ hb => hb) ht

def MayLoad (request : JobRequest) (now : Time) (db db' : Database) : Prop :=
  db' = db ∨ ∃ execID loaded, request.jobExecutionID = some execID ∧ Loads db execID now loaded db'

theorem MayLoad.requests (h : MayLoad request now db db') : db'.requests = db.requests := by
  rcases h with rfl | ⟨execID, loaded, -, hloads⟩
  · rfl
  · rw [hloads.tables]

theorem MayLoad.apart (h : MayLoad request now db db')
    (hexec : request.jobExecutionID ≠ some a.execution.id) : Apart a db db' := by
  rcases h with rfl | ⟨execID, loaded, href, hloads⟩
  · exact Apart.refl a db'
  · exact Apart.of_loads hloads fun heq => hexec (heq ▸ href)

theorem getJobRequest_cases (db : Database) (id : String) (now : Time) :
    (∃ err, getJobRequest db sweepContext id now = (db, .error err)) ∨
      ∃ request healed, getJobRequest db sweepContext id now = (healed, .ok request) ∧
        db.requests.find? id = some request ∧ request.userID = "" ∧
        MayLoad request now db healed := by
  unfold getJobRequest
  cases hget : JobRequestRepository.get db sweepContext id with
  | error err => exact .inl ⟨err, rfl⟩
  | ok request =>
    right
    obtain ⟨-, hfound, hscope⟩ := JobRequestRepository.request_of_get hget
    have huser : request.userID = "" := beq_iff_eq.mp hscope
    cases href : request.jobExecutionID with
    | none => exact ⟨request, db, by simp [href], hfound, huser, .inl rfl⟩
    | some execID =>
      cases hload : get db execID now with
      | error => exact ⟨request, db, by simp [href, hload], hfound, huser, .inl rfl⟩
      | ok loaded =>
        exact ⟨request, loaded.2, by simp [href, hload], hfound, huser,
          .inr ⟨execID, loaded.1, href, get_eq_ok.mp hload⟩⟩

theorem breachedTaskType_cases (db : Database) (request : JobRequest) (d : ApprovalDeadline)
    (now : Time) : MayLoad request now db (breachedTaskType db request d now).1 := by
  unfold breachedTaskType
  cases hload : get db (request.jobExecutionID.getD "") now with
  | error => exact .inl rfl
  | ok loaded =>
    right
    have hloads := get_eq_ok.mp hload
    refine ⟨request.jobExecutionID.getD "", loaded.1, ?_, ?_⟩
    · cases href : request.jobExecutionID with
      | none => exact absurd (by simp [href]) hloads.named
      | some => rfl
    · dsimp only
      split <;> exact hloads

theorem exists_commits_timeOut (db : Database) (c : VoteClock) (breach : SLABreach) :
    ∃ verdict, Commits breach.request breach.taskType breach.deadline.taskExecutionID db
      (timeOut db c breach) verdict := by
  unfold timeOut
  split
  · exact ⟨_, .approve _ _ _ _ rfl⟩
  · exact ⟨_, .reject _ _ _ _ _ rfl⟩
  · exact ⟨_, .nothing rfl rfl rfl⟩

theorem timeOut_deadlines (breach : SLABreach) :
    Lasts db.deadlines (timeOut db c breach).deadlines := by
  unfold timeOut
  split
  · exact lasts_update (fun _ => by rfl) fun _ _ => rfl
  · exact lasts_update (fun _ => by rfl) fun _ _ => rfl
  · exact .refl _

theorem markDeadline_apart (breach : SLABreach) : Apart a db (markDeadline db breach) := by
  refine { Apart.refl a db with deadlines := ?_ }
  simp only [markDeadline]
  refine lasts_update _ fun dl hres => ?_
  split
  · rfl
  · rfl
  · exact hres

theorem handleBreachedDeadline_own (hown : Own a db) : Own a (handleBreachedDeadline db c d) := by
  rcases getJobRequest_cases db d.jobRequestID c.now with
    ⟨err, hget⟩ | ⟨request, healed, hget, -, -, hhealed⟩
  · simp only [handleBreachedDeadline, hget]
    exact hown
  have hreqs : (breachedTaskType healed request d c.now).1.requests = db.requests :=
    (breachedTaskType_cases healed request d c.now).requests.trans hhealed.requests
  obtain ⟨verdict, hcomm⟩ := exists_commits_timeOut (breachedTaskType healed request d c.now).1 c
    ⟨sweepContext, d, request, (breachedTaskType healed request d c.now).2⟩
  simp only [handleBreachedDeadline, hget]
  intro r' hr' href'
  obtain ⟨r, hr, hid, href⟩ := hcomm.references r' hr'
  rw [hreqs] at hr
  exact hid ▸ hown r hr (href.trans href')

theorem handleBreachedDeadline_apart (hown : Own a db) (hne : d.jobRequestID ≠ a.request.id) :
    Apart a db (handleBreachedDeadline db c d) := by
  rcases getJobRequest_cases db d.jobRequestID c.now with
    ⟨err, hget⟩ | ⟨request, healed, hget, hfind, -, hhealed⟩
  · simp only [handleBreachedDeadline, hget]
    exact Apart.refl a db
  have hid : request.id ≠ a.request.id := by
    rw [(find?_eq_some_iff.mp hfind).2]
    exact hne
  have hexec : request.jobExecutionID ≠ some a.execution.id :=
    fun href => hid (hown request (find?_eq_some_iff.mp hfind).1 href)
  simp only [handleBreachedDeadline, hget, handleSLABreach]
  have htype := breachedTaskType_cases healed request d c.now
  refine ((hhealed.apart hexec).trans (htype.apart hexec)).trans ?_
  refine Apart.trans ?_ (markDeadline_apart _)
  obtain ⟨verdict, hcomm⟩ := exists_commits_timeOut (breachedTaskType healed request d c.now).1 c
    ⟨sweepContext, d, request, (breachedTaskType healed request d c.now).2⟩
  exact Apart.of_commits hcomm (timeOut_deadlines _) hid hexec

theorem handleBreachedDeadline_of_user (hrow : db.requests.find? d.jobRequestID = some a.request)
    (huser : a.request.userID ≠ "") : handleBreachedDeadline db c d = db := by
  rcases getJobRequest_cases db d.jobRequestID c.now with
    ⟨err, hget⟩ | ⟨request, healed, hget, hfind, hnone, -⟩
  · simp only [handleBreachedDeadline, hget]
  rw [hrow] at hfind
  cases hfind
  exact absurd hnone huser

/-- The rows of a wait, as the decision needs them. -/
structure Ready (a : Awaiting) (db : Database) : Prop where
  request : db.requests.find? a.request.id = some a.request
  execution : db.executions.find? a.execution.id = some a.execution
  task : a.task ∈ db.tasks
  only : ∀ t ∈ db.tasks, t.jobExecutionID = a.execution.id → t.active = true →
    t.taskType = a.task.taskType → t.id = a.task.id
  own : Own a db

theorem Ready.apart (h : Ready a db) (hapart : Apart a db db') : Ready a db' where
  request := hapart.request.trans h.request
  execution := hapart.execution.trans h.execution
  task := (hapart.tasks _ a.belongs).mpr h.task
  only t ht hexec := h.only t ((hapart.tasks t hexec).mp ht) hexec
  own := h.own.apart hapart

theorem Ready.load (h : Ready a db) (now : Time) (hid : a.execution.id ≠ "")
    (hact : a.execution.active = true) (htask : a.task.active = true) :
    ∃ loaded db', get db a.execution.id now = .ok (loaded, db') ∧
      Ready a db' ∧ db'.deadlines = db.deadlines ∧
      (loaded.tasks.find? fun t => t.id == a.task.id) = some a.task := by
  have hlate : isLatest (activeTasks db a.execution.id) a.task = true := by
    refine isLatest_of_sole (mem_activeTasks.mpr ⟨h.task, a.belongs, htask⟩) ?_
    intro t ht htype
    obtain ⟨hmem, hexec, hact'⟩ := mem_activeTasks.mp ht
    exact h.only t hmem hexec hact' htype
  obtain ⟨loaded, db', hloads⟩ : ∃ loaded db', Loads db a.execution.id now loaded db' :=
    ⟨⟨a.execution, _⟩, _, hid, h.execution, hact, rfl, rfl⟩
  have hkept : deactivated db a.execution.id a.task = false := by
    rw [← Bool.not_eq_true, deactivated_iff h.task]
    rintro ⟨-, -, hstale⟩
    rw [hlate] at hstale
    cases hstale
  refine ⟨loaded, db', get_eq_ok.mpr hloads, ?_, by rw [hloads.tables], ?_⟩
  · rw [hloads.tables]
    refine { h with task := ?_, only := ?_ }
    · exact mem_map.mpr ⟨a.task, h.task, by simp [hkept]⟩
    intro t ht hexec hact' htype
    obtain ⟨t', ht', rfl⟩ := mem_map.mp ht
    cases hstale : deactivated db a.execution.id t' with
    | true => simp [hstale] at hact'
    | false =>
      simp only [hstale, Bool.false_eq_true, if_false] at hexec hact' htype ⊢
      exact h.only t' ht' hexec hact' htype
  · have hmem : a.task ∈ loaded.tasks := by
      rw [hloads.tasks]
      exact mem_filter.mpr ⟨mem_activeTasks.mpr ⟨h.task, a.belongs, htask⟩, hlate⟩
    obtain ⟨t, ht⟩ := isSome_iff_exists.mp (find?_isSome.mpr ⟨a.task, hmem, beq_self_eq_true _⟩ :
        (loaded.tasks.find? fun t => t.id == a.task.id).isSome)
    have hid : t.id = a.task.id := by simpa using find?_some ht
    have htdb := (hloads.mem_tasks (mem_of_find?_eq_some ht)).1
    rw [ht, eq_of_key_eq htdb h.task hid]

/-- The wait has been decided as the deadline says. -/
structure Decided (a : Awaiting) (d : ApprovalDeadline) (db : Database) : Prop where
  request : (db.requests.find? a.request.id).map JobRequest.jobState =
    some (deadlineVerdict d).requestState
  task : ∃ t ∈ db.tasks, t.id = a.task.id ∧ t.jobExecutionID = a.execution.id ∧
    t.taskState = (deadlineVerdict d).taskState
  deadline : ∃ dl, db.deadlines.find? d.id = some dl ∧ dl.resolved = true

theorem Decided.apart (h : Decided a d db) (hapart : Apart a db db') : Decided a d db' where
  request := by rw [hapart.request, h.request]
  task := by
    obtain ⟨t, ht, hid, hexec, hstate⟩ := h.task
    exact ⟨t, (hapart.tasks t hexec).mpr ht, hid, hexec, hstate⟩
  deadline := by
    obtain ⟨dl, hdl, hres⟩ := h.deadline
    obtain ⟨dl', hdl', hres'⟩ := hapart.deadlines _ dl hdl
    exact ⟨dl', hdl', hres' hres⟩

theorem Decided.enforced (h : Decided a d db) : Enforced a d db := by
  obtain ⟨t, ht, hid, -, hstate⟩ := h.task
  obtain ⟨dl, hdl, hres⟩ := h.deadline
  refine ⟨h.request, ?_, ?_⟩
  · rw [find?_eq_some_iff.mpr ⟨ht, hid⟩, map_some, hstate]
  · rw [hdl, map_some, hres]

theorem timeOut_of_decides (db : Database) (c : VoteClock) {breach : SLABreach}
    (h : breach.deadline.timeoutAction = .autoApprove ∨
      breach.deadline.timeoutAction = .autoReject) :
    Commits breach.request breach.taskType breach.deadline.taskExecutionID db
      (timeOut db c breach) (some (deadlineVerdict breach.deadline, breach.qc)) := by
  unfold timeOut deadlineVerdict
  rcases h with h | h
  · simp only [h, if_true]
    exact .approve _ _ _ _ rfl
  · simp only [h, reduceCtorEq, if_false]
    exact .reject _ _ _ _ _ rfl

variable {dl : ApprovalDeadline}

theorem handleSLABreach_decides (h : Ready a db) (huser : a.request.userID = "")
    (hdec : d.timeoutAction = .autoApprove ∨ d.timeoutAction = .autoReject)
    (hdl : db.deadlines.find? d.id = some dl) :
    Decided a d (handleSLABreach db c ⟨sweepContext, d, a.request, a.task.taskType⟩) := by
  have hcomm := timeOut_of_decides db c
    (show (⟨sweepContext, d, a.request, a.task.taskType⟩ : SLABreach).deadline.timeoutAction = _ ∨ _
      from hdec)
  have htask : db.tasks.find? a.task.id = some a.task :=
    find?_eq_some_iff.mpr ⟨h.task, rfl⟩
  constructor
  · exact hcomm.request_of_writable h.request a.requestWaits
      (by rw [sweepContext_scope, huser]; rfl)
  · have hstate := hcomm.task_of_waiting htask
      (by simp [waitingTask, a.executes, a.belongs, a.taskWaits])
    have hexec := hcomm.task_execution a.task.id
    obtain ⟨t, ht, hts⟩ := map_eq_some_iff.mp hstate
    rw [ht, htask] at hexec
    obtain ⟨hmem, hid⟩ := find?_eq_some_iff.mp ht
    exact ⟨t, hmem, hid, (some.inj hexec).trans a.belongs, hts⟩
  · obtain ⟨dl', hdl', -⟩ := timeOut_deadlines (c := c)
      ⟨sweepContext, d, a.request, a.task.taskType⟩ d.id dl hdl
    have hid : dl'.id = d.id := (find?_eq_some_iff.mp hdl').2
    refine ⟨{ dl' with resolved := true }, ?_, rfl⟩
    simp only [handleSLABreach, markDeadline]
    rw [find?_update, hdl', map_some, hid, beq_self_eq_true, if_pos rfl]
    rcases hdec with hact | hact <;> simp [hact]

theorem handleBreachedDeadline_decides (h : Ready a db) (huser : a.request.userID = "")
    (hreq : a.request.id ≠ "") (hex : a.execution.id ≠ "")
    (hact : a.execution.active = true) (htask : a.task.active = true)
    (hd : d.jobRequestID = a.request.id) (htid : d.taskExecutionID = a.task.id)
    (hdec : d.timeoutAction = .autoApprove ∨ d.timeoutAction = .autoReject)
    (hdl : db.deadlines.find? d.id = some dl) :
    Decided a d (handleBreachedDeadline db c d) := by
  obtain ⟨loaded₁, db₁, hget₁, hready₁, hdl₁, -⟩ := h.load c.now hex hact htask
  obtain ⟨loaded₂, db₂, hget₂, hready₂, hdl₂, hfind⟩ :=
    hready₁.load c.now hex hact htask
  have hrow : JobRequestRepository.get db sweepContext a.request.id = .ok a.request := by
    simp [JobRequestRepository.get, hreq, h.request, sweepContext_scope, huser]
  have hload : getJobRequest db sweepContext d.jobRequestID c.now = (db₁, .ok a.request) := by
    simp only [getJobRequest, hd, hrow, a.executes, hget₁]
  have htype : breachedTaskType db₁ a.request d c.now = (db₂, a.task.taskType) := by
    simp only [breachedTaskType, a.executes, getD_some, hget₂, htid, hfind]
  simp only [handleBreachedDeadline, hload, htype]
  exact handleSLABreach_decides hready₂ huser hdec (by rw [hdl₂, hdl₁]; exact hdl)

variable {clock : ApprovalDeadline → VoteClock} {l : List ApprovalDeadline}

theorem foldl_apart (clock : ApprovalDeadline → VoteClock) (hown : Own a db)
    (h : ∀ d' ∈ l, d'.jobRequestID ≠ a.request.id) :
    Apart a db (l.foldl (fun db d => handleBreachedDeadline db (clock d) d) db) := by
  induction l generalizing db with
  | nil => exact Apart.refl a db
  | cons d' l ih =>
    have hstep : Apart a db (handleBreachedDeadline db (clock d') d') :=
      handleBreachedDeadline_apart hown (h d' mem_cons_self)
    exact hstep.trans (ih (hown.apart hstep) fun d hd => h d (mem_cons_of_mem d' hd))

theorem foldl_request_of_user (clock : ApprovalDeadline → VoteClock) (hown : Own a db)
    (huser : a.request.userID ≠ "") (hrow : db.requests.find? a.request.id = some a.request) :
    (l.foldl (fun db d => handleBreachedDeadline db (clock d) d) db).requests.find? a.request.id =
      some a.request := by
  induction l generalizing db with
  | nil => exact hrow
  | cons d' l ih =>
    rw [foldl_cons]
    by_cases hd : d'.jobRequestID = a.request.id
    · rw [handleBreachedDeadline_of_user (hd ▸ hrow) huser]
      exact ih hown hrow
    have hstep : Apart a db (handleBreachedDeadline db (clock d') d') :=
      handleBreachedDeadline_apart hown hd
    exact ih (hown.apart hstep) (hstep.request.trans hrow)

theorem nodup_findBreachedDeadlines (db : Database) (now : Time) (limit : ℕ) :
    (findBreachedDeadlines db now limit).Nodup := by
  refine List.Nodup.sublist (take_sublist _ _) ?_
  rw [(perm_insertionSort _ _).nodup_iff]
  exact (List.Nodup.of_map _ db.deadlines.nodup).filter _

/-- A breached deadline is enforced exactly if the request has no user. -/
theorem enforced_iff_no_user (h : Breached db now a d) (hundisturbed : Undisturbed db now a d) :
    Enforced a d (checkApprovalSLABreaches db now clock) ↔ a.request.userID = "" := by
  constructor
  · intro henforced
    by_contra huser
    have hrow := foldl_request_of_user clock
      (l := findBreachedDeadlines db now 100) hundisturbed.own huser h.request
    have hstate := henforced.1
    unfold checkApprovalSLABreaches at hstate
    rw [hrow, map_some, a.requestWaits] at hstate
    cases hverd : deadlineVerdict d <;> rw [hverd] at hstate <;> cases hstate
  · intro huser
    obtain ⟨before, after, hsplit⟩ := append_of_mem h.returned
    have hnodup := nodup_findBreachedDeadlines db now 100
    rw [hsplit, nodup_append, nodup_cons] at hnodup
    have hbef : ∀ d' ∈ before, d'.jobRequestID ≠ a.request.id := by
      intro d' hd' heq
      have hsame := hundisturbed.sole d' (hsplit ▸ mem_append_left _ hd') heq
      exact hnodup.2.2 d' hd' d mem_cons_self hsame
    have hafter : ∀ d' ∈ after, d'.jobRequestID ≠ a.request.id := by
      intro d' hd' heq
      have hmem : d' ∈ before ++ d :: after :=
        mem_append_right _ (mem_cons_of_mem _ hd')
      have hsame := hundisturbed.sole d' (hsplit ▸ hmem) heq
      exact hnodup.2.1.1 (hsame ▸ hd')
    have hready : Ready a db :=
      ⟨h.request, h.execution, (find?_eq_some_iff.mp h.task).1, hundisturbed.only, hundisturbed.own⟩
    have hfirst := foldl_apart clock hready.own hbef
    have hmem := (perm_insertionSort _ _).mem_iff.mp (mem_of_mem_take h.returned)
    obtain ⟨dl, hdl, -⟩ := hfirst.deadlines d.id d
      (find?_eq_some_iff.mpr ⟨(mem_filter.mp hmem).1, rfl⟩)
    have hdec : Decided a d (handleBreachedDeadline
        (before.foldl (fun db d => handleBreachedDeadline db (clock d) d) db) (clock d) d) :=
      handleBreachedDeadline_decides (hready.apart hfirst) huser hundisturbed.requestID
        hundisturbed.executionID hundisturbed.executionActive hundisturbed.taskActive
        h.jobRequestID h.taskExecutionID h.decides hdl
    have hlast := foldl_apart clock
      (handleBreachedDeadline_own (c := clock d) (d := d) (hready.apart hfirst).own) hafter
    unfold checkApprovalSLABreaches
    rw [hsplit, foldl_append, foldl_cons]
    exact (hdec.apart hlast).enforced

instance (a : Awaiting) (d : ApprovalDeadline) (db : Database) : Decidable (Enforced a d db) :=
  inferInstanceAs (Decidable (_ ∧ _))

def overdue : ApprovalDeadline where
  id := "x1"
  taskExecutionID := "t1"
  jobRequestID := "r1"
  deadline := 5
  escalated := false
  resolved := false
  timeoutAction := .autoApprove
  escalationRecipients := ""

def Awaiting.overdueDatabase (a : Awaiting) : Database :=
  { a.database with deadlines := ⟨[overdue], by simp⟩ }

def anonymousReview : Awaiting :=
  { review with
    request := { review.request with userID := "", organizationID := "" }
    requestWaits := rfl
    executes := rfl }

theorem enforced_anonymousReview : Enforced anonymousReview overdue
      (checkApprovalSLABreaches anonymousReview.overdueDatabase 10 fun _ => {}) :=
  (enforced_iff_no_user
    ⟨by decide, by decide, by decide, by decide, by decide, by decide, by decide⟩
    ⟨by decide, by decide, by decide, by decide, by decide, by decide, by decide⟩).mpr rfl

/-- The deadline of a review that a user submitted passes, and the sweep leaves all as it was. -/
theorem not_enforced_review : Breached review.overdueDatabase 10 review overdue ∧
      ¬ Enforced review overdue (checkApprovalSLABreaches review.overdueDatabase 10 fun _ => {}) :=
  ⟨⟨by decide, by decide, by decide, by decide, by decide, by decide, by decide⟩, by decide⟩

end Formicary.Approval

import Formicary.Library.Tree
import Formicary.Model.Forking
import Formicary.Verification.Definition.Validation
import Formicary.Verification.Supervisor.Machine

/-! # Chains of forks

The check against fork bombs looks at the parameters of the request that is saved. -/

namespace Formicary

open JobRequestParam Checked JobSupervisor List SubmittedRequest

namespace SubmittedRequest

/-- The job types from which a request says that it was forked. -/
def recorded (req : SubmittedRequest) : List String :=
  (req.params.filter namesParent).map value

end SubmittedRequest

namespace Forking

theorem checkForks_eq_ok {req : SubmittedRequest} : checkForks req = .ok () ↔
      req.jobType ∉ req.recorded ∧ req.recorded.length ≤ maxForkJobs := by
  have hany : (req.params.any fun param => param.namesParent && param.value == req.jobType) = true ↔
      req.jobType ∈ req.recorded := by
    rw [any_eq_true, recorded, mem_map]
    simp only [Bool.and_eq_true, beq_iff_eq, mem_filter, and_assoc]
  have hcount : req.params.countP namesParent = req.recorded.length := by
    simp [recorded, countP_eq_length_filter]
  unfold checkForks
  rw [hcount]
  split
  · next h => simp [hany.mp h]
  next h =>
  split
  · next hmany => simp [Nat.not_le_of_lt hmany]
  · next hfew => simp [mt hany.mpr h, Nat.not_lt.mp hfew]

variable {defs : List StoredJob} {parseTemplate : Template} {qc : QueryContext} {job : StoredJob}

theorem findByType_jobType {jobType semVersion : String}
    (h : findByType defs qc jobType semVersion = some job) : job.jobType = jobType := by
  unfold findByType at h
  split at h
  on_goal 2 => rcases Option.or_eq_some_iff.mp h with h | ⟨-, h⟩
  all_goals
    have hfound := find?_some h
    simp only [Bool.and_eq_true, beq_iff_eq] at hfound
    exact hfound.1.1

theorem typeAndVersion_size (jobType version : String) :
    jobType.utf8ByteSize ≤ (typeAndVersion jobType version).1.utf8ByteSize := by
  unfold typeAndVersion
  dsimp only
  split
  · exact le_rfl
  simp only [String.utf8ByteSize_append]
  omega

theorem getJobDefinitionByType_size {jobType version : String}
    (h : getJobDefinitionByType defs qc jobType version = .ok job) :
    jobType.utf8ByteSize ≤ 100 := by
  unfold getJobDefinitionByType at h
  dsimp only at h
  split at h
  · cases h
  split at h
  · cases h
  next found hfound =>
  split at h <;> cases h
  have hjob : job.jobType.utf8ByteSize ≤ 100 := job.workflow.stored_accepted.jobType
  rw [findByType_jobType hfound] at hjob
  exact le_trans (typeAndVersion_size jobType version) hjob

/-- What a request is once it has been saved. -/
structure Saved (req saved : SubmittedRequest) : Prop where
  parentID : saved.parentID = req.parentID
  params : saved.params = req.params
  size : saved.jobType.utf8ByteSize ≤ 100
  unrepeated : saved.jobType ∉ saved.recorded
  few : saved.recorded.length ≤ maxForkJobs

variable {outcome : SaveOutcome}

theorem saveJobRequest_saved {req saved : SubmittedRequest}
    (h : saveJobRequest defs qc req outcome = .ok saved) : Saved req saved := by
  obtain ⟨job, hjob, h⟩ := bind_eq_ok.mp h
  obtain ⟨-, h⟩ := seq_eq_ok.mp h
  obtain ⟨hcheck, h⟩ := seq_eq_ok.mp h
  obtain ⟨-, h⟩ := seq_eq_ok.mp h
  cases h
  obtain ⟨hunrep, hfew⟩ := checkForks_eq_ok.mp hcheck
  exact ⟨rfl, rfl, getJobDefinitionByType_size hjob, hunrep, hfew⟩

theorem saveJobRequest_eq_ok (req : SubmittedRequest) (id : String)
    (hjob : getJobDefinitionByType defs qc req.jobType req.jobVersion = .ok job)
    (hunrep : req.jobType ∉ req.recorded) (hfew : req.recorded.length ≤ maxForkJobs) :
    saveJobRequest defs qc req ⟨none, none, id⟩ = .ok { req with
        id := id
        userID := qc.getUserID
        organizationID := qc.getOrganizationID
        jobDefinitionID := job.id } := by
  have hcheck : checkForks { req with
      userID := qc.getUserID
      organizationID := qc.getOrganizationID
      jobDefinitionID := job.id } = .ok () := checkForks_eq_ok.mpr ⟨hunrep, hfew⟩
  unfold saveJobRequest
  dsimp only
  rw [hjob]
  change (checkForks _ >>= _) = _
  rw [hcheck]
  rfl

section Params

variable {params params' : List JobRequestParam} {name value : String}

theorem mem_addParam (h : addParam params name value = .ok params') :
    ⟨name, value⟩ ∈ params' ∧ ∀ param ∈ params, param.name ≠ name → param ∈ params' := by
  unfold addParam newJobRequestParam at h
  by_cases hbig : value.utf8ByteSize > maxConfigValueLength
  · rw [if_pos hbig] at h
    cases h
  rw [if_neg hbig] at h
  cases h
  split
  · next hany =>
    obtain ⟨next, hnext, hname⟩ := any_eq_true.mp hany
    rw [beq_iff_eq] at hname
    exact ⟨mem_map.mpr ⟨next, hnext, by simp [← hname]⟩,
      fun param hparam hne => mem_map.mpr ⟨param, hparam, if_neg hne⟩⟩
  · exact ⟨by simp, fun param hparam _ => mem_append_left _ hparam⟩

theorem mem_addParamOrSkip (params : List JobRequestParam) (name : String)
    (hvalue : value.utf8ByteSize ≤ maxConfigValueLength) :
    ⟨name, value⟩ ∈ addParamOrSkip params name value := by
  have hadd : addParam params name value = .ok (addParamOrSkip params name value) := by
    unfold addParamOrSkip addParam newJobRequestParam
    rw [if_neg (Nat.not_lt.mpr hvalue)]
    rfl
  exact (mem_addParam hadd).1

theorem mem_addParamOrSkip_of_ne {param : JobRequestParam} (hparam : param ∈ params)
    (hne : param.name ≠ name) : param ∈ addParamOrSkip params name value := by
  unfold addParamOrSkip
  cases hadd : addParam params name value with
  | error => exact hparam
  | ok => exact (mem_addParam hadd).2 param hparam hne

theorem inputMap_eq_ok {sw : SubWorkflowConfig} {inputs : List SubWorkflowVariable}
    (h : sw.inputMap = .ok inputs) :
    inputs = sw.inputParams ∧ (sw.inputParams.map SubWorkflowVariable.name).Nodup := by
  refine foldlM_invariant (P := fun seen inputs =>
    inputs = seen ∧ (seen.map SubWorkflowVariable.name).Nodup) ⟨rfl, nodup_nil⟩ ?_ h
  rintro seen _ input inputs ⟨rfl, hnodup⟩ hstep
  split at hstep <;> cases hstep
  next hnew =>
  refine ⟨rfl, ?_⟩
  rw [map_append, nodup_append']
  exact ⟨hnodup, nodup_singleton _, by simpa using hnew⟩

/-- Every input parameter of a child has the value that is rendered for it. -/
theorem mem_addInputParams {errors : InputErrors} {data : List (String × String)}
    {sw : SubWorkflowConfig} (h : addInputParams parseTemplate errors data (some sw) params =
      .ok params') {input : SubWorkflowVariable} (hinput : input ∈ sw.inputParams)
    (hvalue : parseTemplate input.value data = .ok value) : ⟨input.name, value⟩ ∈ params' := by
  obtain ⟨inputs, hinputs, h⟩ := bind_eq_ok.mp h
  obtain ⟨rfl, hnodup⟩ := inputMap_eq_ok hinputs
  refine foldlM_invariant (P := fun seen params => (seen.map SubWorkflowVariable.name).Nodup →
    ∀ input ∈ seen, ∀ value, parseTemplate input.value data = .ok value →
      ⟨input.name, value⟩ ∈ params) nofun ?_ h hnodup input hinput value hvalue
  intro seen params next params' hseen hstep hnodup input hinput value hvalue
  rw [map_append, nodup_append'] at hnodup
  obtain ⟨resolved, hres, hstep⟩ := bind_eq_ok.mp hstep
  cases hadd : addParam params next.name resolved with
  | error => simp [hadd, Except.mapError] at hstep
  | ok =>
    rw [hadd] at hstep
    cases hstep
    rcases mem_append.mp hinput with hold | hnew
    · refine (mem_addParam hadd).2 _ (hseen hnodup.1 input hold value hvalue) fun hname => ?_
      exact hnodup.2.2 (mem_map_of_mem hold) (by simp [← hname])
    · obtain rfl := mem_singleton.mp hnew
      rw [hvalue] at hres
      cases hres
      exact (mem_addParam hadd).1

end Params

theorem startsWith_append (start rest : String) : Text.startsWith (start ++ rest) start = true := by
  simp [Text.startsWith]

/-- The data that the input parameters of a child are rendered with. -/
def inputData (taskReq : TaskRequest) : Fork → List (String × String)
  | .forkJob => templateData taskReq.vars
  | .fanOut itemVal _ =>
    taskReq.executorOpts.fanOut.elim [] fun fanOut =>
      FanOutTasklet.itemData taskReq fanOut itemVal

/-- An input parameter of the task renders to the job type, under a name that says that the child
was forked from it and is not the one under which the parent is entered. -/
def Hands (parseTemplate : Template) (taskReq : TaskRequest) (fork : Fork) (jobType : String) :
    Prop :=
  ∃ sw ∈ taskReq.executorOpts.subWorkflow, ∃ input ∈ sw.inputParams,
    Text.startsWith input.name parentJobType = true ∧
    input.name ≠ parentJobType ++ "_" ++ taskReq.jobRequestID ∧
    parseTemplate input.value (inputData taskReq fork) = .ok jobType

variable {child : SubmittedRequest} {taskReq : TaskRequest}

theorem JobForkTasklet.execute_saved
    (h : JobForkTasklet.execute defs parseTemplate taskReq outcome = .ok child) :
    (∃ req, Saved req child) ∧ child.parentID = taskReq.jobRequestID ∧
      (taskReq.jobType.utf8ByteSize ≤ maxConfigValueLength → taskReq.jobType ∈ child.recorded) ∧
      ∀ jobType, Hands parseTemplate taskReq .forkJob jobType → jobType ∈ child.recorded := by
  unfold JobForkTasklet.execute at h
  dsimp only at h
  split at h
  · cases h
  obtain ⟨job, -, h⟩ := bind_eq_ok.mp h
  obtain ⟨req, -, h⟩ := bind_eq_ok.mp h
  obtain ⟨params, hparams, h⟩ := bind_eq_ok.mp h
  have hsaved := saveJobRequest_saved h
  refine ⟨⟨_, hsaved⟩, hsaved.parentID, fun hsize => ?_, ?_⟩
  · refine mem_map.mpr ⟨⟨parentJobType ++ "_" ++ taskReq.jobRequestID, taskReq.jobType⟩, ?_, rfl⟩
    rw [hsaved.params]
    refine mem_filter.mpr ⟨mem_addParamOrSkip _ _ hsize, ?_⟩
    rw [String.append_assoc]
    exact startsWith_append parentJobType _
  · rintro jobType ⟨sw, hsw, input, hinput, hname, hother, hvalue⟩
    rw [Option.mem_def.mp hsw] at hparams
    have hmem := mem_addInputParams hparams hinput hvalue
    refine mem_map.mpr ⟨⟨input.name, jobType⟩, ?_, rfl⟩
    rw [hsaved.params]
    have hforked : input.name ≠ forkedJob := by
      rintro heq
      rw [heq] at hname
      exact absurd hname (by decide)
    refine mem_filter.mpr ⟨?_, hname⟩
    exact mem_addParamOrSkip_of_ne (mem_addParamOrSkip_of_ne hmem hforked) hother

theorem FanOutTasklet.execute_saved {itemVal : String} {idx : ℕ}
    (h : FanOutTasklet.execute defs parseTemplate taskReq itemVal idx outcome = .ok (some child)) :
    (∃ req, Saved req child) ∧ child.parentID = taskReq.jobRequestID ∧
      ∀ jobType, Hands parseTemplate taskReq (.fanOut itemVal idx) jobType →
        jobType ∈ child.recorded := by
  unfold FanOutTasklet.execute at h
  split at h
  · cases h
  next fanOut hfan =>
  obtain ⟨-, h⟩ := seq_eq_ok.mp h
  split at h
  · obtain ⟨child, hspawn, h⟩ := bind_eq_ok.mp h
    cases h
    obtain ⟨job, -, hspawn⟩ := bind_eq_ok.mp hspawn
    obtain ⟨req, -, hspawn⟩ := bind_eq_ok.mp hspawn
    obtain ⟨params, hparams, hspawn⟩ := bind_eq_ok.mp hspawn
    have hsaved := saveJobRequest_saved hspawn
    refine ⟨⟨_, hsaved⟩, hsaved.parentID, ?_⟩
    rintro jobType ⟨sw, hsw, input, hinput, hname, -, hvalue⟩
    rw [Option.mem_def.mp hsw] at hparams
    rw [inputData, hfan] at hvalue
    refine mem_map.mpr ⟨⟨input.name, jobType⟩, ?_, rfl⟩
    rw [hsaved.params]
    exact mem_filter.mpr ⟨mem_addInputParams hparams hinput hvalue, hname⟩
  · cases h

/-- What is known of the child of an action, whichever tasklet has saved it. -/
structure Child (parseTemplate : Template) (taskReq : TaskRequest) (action : Action)
    (child : SubmittedRequest) : Prop where
  parentID : child.parentID = action.parent.request.id
  size : child.jobType.utf8ByteSize ≤ 100
  unrepeated : child.jobType ∉ child.recorded
  few : child.recorded.length ≤ maxForkJobs
  parent : action.fork = .forkJob → action.parent.request.jobType.utf8ByteSize ≤ 100 →
    action.parent.request.jobType ∈ child.recorded
  handed : ∀ jobType, Hands parseTemplate taskReq action.fork jobType → jobType ∈ child.recorded

variable {action : Action}

theorem child?_spec (h : child? defs parseTemplate action = some child) :
    ∃ taskReq, buildTaskRequest defs action.parent.request action.taskType action.vars =
      some taskReq ∧ Child parseTemplate taskReq action child := by
  obtain ⟨taskReq, hreq, hrun⟩ := Option.bind_eq_some_iff.mp h
  refine ⟨taskReq, hreq, ?_⟩
  obtain ⟨job, -, hbuild⟩ := Option.bind_eq_some_iff.mp hreq
  obtain ⟨task, -, rfl⟩ := Option.map_eq_some_iff.mp hbuild
  obtain ⟨parent, taskType, vars, fork, outcome⟩ := action
  cases fork with
  | forkJob =>
    unfold runTasklet at hrun
    split at hrun
    · obtain ⟨⟨req, hsaved⟩, hpid, hrec, hhands⟩ :=
        JobForkTasklet.execute_saved (toOption_eq_some.mp hrun)
      have hmax : 100 ≤ maxConfigValueLength := by decide
      exact ⟨hpid, hsaved.size, hsaved.unrepeated, hsaved.few, fun _ hsize =>
        hrec (le_trans hsize hmax), hhands⟩
    · next hfork => cases hfork
    · cases hrun
  | fanOut itemVal idx =>
    unfold runTasklet at hrun
    split at hrun
    · next hfork => cases hfork
    · next hfork =>
      cases hfork
      obtain ⟨⟨req, hsaved⟩, hpid, hhands⟩ :=
        FanOutTasklet.execute_saved (toOption_eq_some.mp (Option.join_eq_some_iff.mp hrun))
      exact ⟨hpid, hsaved.size, hsaved.unrepeated, hsaved.few, nofun, hhands⟩
    · cases hrun

/-- The input parameters of the task hand on every type that the request was forked from, and in a
fan-out its own as well. -/
def Forwards (defs : List StoredJob) (parseTemplate : Template) (action : Action) : Prop :=
  ∀ taskReq ∈ buildTaskRequest defs action.parent.request action.taskType action.vars,
    (∀ jobType ∈ action.parent.request.recorded, Hands parseTemplate taskReq action.fork jobType) ∧
    (action.fork ≠ .forkJob → Hands parseTemplate taskReq action.fork action.parent.request.jobType)

/-- The chain of a member has no type twice, and no more forks than are allowed. -/
structure Member.Bounded (m : Member) : Prop where
  unrepeated : (m.chain.map SubmittedRequest.jobType).Nodup
  few : m.ancestors.length ≤ maxForkJobs

/-- What forwarding keeps: a member says from which types it comes. -/
structure Member.Traced (m : Member) : Prop extends m.Bounded where
  size : m.request.jobType.utf8ByteSize ≤ 100
  recorded : ∀ r ∈ m.ancestors, r.jobType ∈ m.request.recorded

theorem Member.Traced.fork (h : action.parent.Traced)
    (hchild : Child parseTemplate taskReq action child)
    (hforw : Forwards defs parseTemplate action)
    (hreq : buildTaskRequest defs action.parent.request action.taskType action.vars =
      some taskReq) : Member.Traced ⟨child, action.parent.chain⟩ := by
  obtain ⟨hold, hown⟩ := hforw taskReq hreq
  have hpar : action.parent.request.jobType ∈ child.recorded := by
    by_cases hfork : action.fork = .forkJob
    · exact hchild.parent hfork h.size
    · exact hchild.handed _ (hown hfork)
  have hrec : ∀ r ∈ action.parent.chain, r.jobType ∈ child.recorded :=
    forall_mem_cons.mpr ⟨hpar, fun r hr => hchild.handed _ (hold _ (h.recorded r hr))⟩
  have hsub : action.parent.chain.map jobType ⊆ child.recorded := by
    intro jobType hjobType
    obtain ⟨r, hr, rfl⟩ := mem_map.mp hjobType
    exact hrec r hr
  refine ⟨⟨?_, ?_⟩, hchild.size, hrec⟩
  · exact nodup_cons.mpr ⟨fun hmem => hchild.unrepeated (hsub hmem), h.unrepeated⟩
  · -- the types of the chain are different ones among those that are counted
    have hlen := (h.unrepeated.subperm hsub).length_le
    rw [length_map] at hlen
    exact le_trans hlen hchild.few

def Member.parent : Member → Member
  | ⟨request, []⟩ => ⟨request, []⟩
  | ⟨_, parent :: ancestors⟩ => ⟨parent, ancestors⟩

/-- The requests of a family have different ids, one of them was submitted, and the others have
their parents in the family. -/
structure Family.Grown (family : Family) : Prop where
  ids : (family.map fun m => m.request.id).Nodup
  root : ∃ root, ∀ m ∈ family, m.ancestors = [] → m = root
  parent : ∀ m ∈ family, m.ancestors ≠ [] →
    m.parent ∈ family ∧ m.request.parentID = m.parent.request.id

variable {family family' : Family}

theorem step_eq_some (h : step defs parseTemplate family action = some family') :
    action.parent ∈ family ∧ ∃ child, child? defs parseTemplate action = some child ∧
      (∀ m ∈ family, m.request.id ≠ child.id) ∧
      family' = ⟨child, action.parent.chain⟩ :: family := by
  unfold step at h
  split at h
  · next hpar =>
    split at h
    · cases h
    next child hchild =>
    split at h <;> cases h
    next hfresh =>
    refine ⟨hpar, child, hchild, fun m hm => ?_, rfl⟩
    simpa using all_eq_true.mp hfresh m hm
  · cases h

theorem Family.Grown.step (h : family.Grown)
    (he : Forking.step defs parseTemplate family action = some family') : family'.Grown := by
  obtain ⟨hpar, child, hchild, hfresh, rfl⟩ := step_eq_some he
  obtain ⟨root, hroot⟩ := h.root
  refine ⟨?_, ⟨root, fun m hm hempty => ?_⟩, fun m hm hne => ?_⟩
  · refine nodup_cons.mpr ⟨fun hmem => ?_, h.ids⟩
    obtain ⟨m, hm, hid⟩ := mem_map.mp hmem
    exact hfresh m hm hid
  · rcases mem_cons.mp hm with rfl | hm
    · cases hempty
    · exact hroot m hm hempty
  · rcases mem_cons.mp hm with rfl | hm
    · obtain ⟨_, _, hspec⟩ := child?_spec hchild
      exact ⟨mem_cons_of_mem _ hpar, hspec.parentID⟩
    · exact ⟨mem_cons_of_mem _ (h.parent m hm hne).1, (h.parent m hm hne).2⟩

theorem Family.Grown.isTree (h : family.Grown) :
    IsTree family.toFinset (fun m => m.ancestors.length) Member.parent := by
  refine ⟨?_, fun m hm hlevel => ?_, fun m _ hlevel => ?_⟩
  · obtain ⟨root, hroot⟩ := h.root
    refine Finset.card_le_one.mpr fun m hm m' hm' => ?_
    simp only [Finset.mem_filter, mem_toFinset, length_eq_zero_iff] at hm hm'
    rw [hroot m hm.1 hm.2, hroot m' hm'.1 hm'.2]
  · rw [mem_toFinset] at hm ⊢
    exact (h.parent m hm (length_pos_iff.mp (Nat.pos_of_ne_zero hlevel))).1
  · obtain ⟨request, ancestors⟩ := m
    cases ancestors with
    | nil => exact absurd rfl hlevel
    | cons => rfl

def Family.Branching (family : Family) (b : ℕ) : Prop :=
  ∀ parent ∈ family, (family.filter fun m => m.request.parentID == parent.request.id).length ≤ b

theorem Family.Grown.length_le {b d : ℕ} (h : family.Grown)
    (hb : family.Branching b) (hd : ∀ m ∈ family, m.ancestors.length ≤ d) :
    family.length ≤ ∑ k ∈ Finset.range (d + 1), b ^ k := by
  have hnodup : family.Nodup := h.ids.of_map _
  rw [← toFinset_card_of_nodup hnodup]
  refine h.isTree.card_le (fun parent hpar => ?_) fun m hm => hd m (mem_toFinset.mp hm)
  refine le_trans ?_ (hb parent (mem_toFinset.mp hpar))
  refine le_trans (Finset.card_le_card fun m hm => ?_) (toFinset_card_le _)
  obtain ⟨hmem, hlevel, rfl⟩ := Finset.mem_filter.mp hm
  rw [mem_toFinset] at hmem ⊢
  have hne := length_pos_iff.mp (Nat.pos_of_ne_zero hlevel)
  exact mem_filter.mpr ⟨hmem, beq_iff_eq.mpr (h.parent m hmem hne).2⟩

/-- The invariant of a family whose forks all forward. -/
structure Family.Inv (family : Family) : Prop where
  grown : family.Grown
  traced : ∀ m ∈ family, m.Traced

theorem Family.Inv.init (h : (system defs parseTemplate).init family) : family.Inv := by
  obtain ⟨request, ⟨qc, req, outcome, saved, params, hsave, rfl⟩, rfl⟩ := h
  have hsaved := saveJobRequest_saved hsave
  refine ⟨⟨by simp, ⟨_, fun m hm _ => mem_singleton.mp hm⟩, fun m hm hne => ?_⟩, ?_⟩
  · rw [mem_singleton.mp hm] at hne
    exact absurd rfl hne
  · intro m hm
    rw [mem_singleton.mp hm]
    exact ⟨⟨nodup_singleton _, Nat.zero_le _⟩, hsaved.size, nofun⟩

theorem Family.Inv.step (h : family.Inv) (hforw : Forwards defs parseTemplate action)
    (he : Forking.step defs parseTemplate family action = some family') : family'.Inv := by
  refine ⟨h.grown.step he, ?_⟩
  obtain ⟨hpar, child, hchild, -, rfl⟩ := step_eq_some he
  refine forall_mem_cons.mpr ⟨?_, h.traced⟩
  obtain ⟨taskReq, hreq, hspec⟩ := child?_spec hchild
  exact (h.traced _ hpar).fork hspec hforw hreq

/-- As far as the input parameters of every fork hand on the types that its request was forked
from, chains are bounded, and so is the family as a whole if no request has more than a fixed
number of children. -/
theorem bounded_of_forwards (defs : List StoredJob) (parseTemplate : Template) {family : Family}
    (h : (system defs parseTemplate).ReachableWith
      (fun _ action => Forwards defs parseTemplate action) family) :
    (∀ m ∈ family, m.Bounded) ∧ ∀ b, family.Branching b →
      family.length ≤ ∑ k ∈ Finset.range (maxForkJobs + 1), b ^ k := by
  have hinv : family.Inv :=
    h.invariant (fun _ hinit => .init hinit) fun _ _ _ hfamily hforw he =>
      hfamily.step hforw he
  refine ⟨fun m hm => (hinv.traced m hm).toBounded, fun b hb => ?_⟩
  exact hinv.grown.length_le hb fun m hm => (hinv.traced m hm).few

instance (fork : Fork) (jobType : String) : Decidable (Hands parseTemplate taskReq fork jobType) :=
  inferInstanceAs (Decidable (∃ sw ∈ taskReq.executorOpts.subWorkflow,
    ∃ input ∈ sw.inputParams, _ ∧ _ ∧ _))

instance (action : Action) : Decidable (Forwards defs parseTemplate action) :=
  inferInstanceAs (Decidable (∀ taskReq ∈ buildTaskRequest defs action.parent.request
    action.taskType action.vars, _ ∧ (_ → _)))

def forkingJob (jobType : String) (task : TaskDefinition) (options : ExecutorOptions)
    (h : ({ jobOf [task] with
      jobType := jobType } : JobDefinition).validate.toOption.isSome = true) : StoredJob where
  id := jobType
  workflow := .ofDeclared { jobOf [task] with jobType := jobType } h
  userID := "u1"
  organizationID := ""
  options _ _ := options

def submittedTo (jobType id : String) : SubmittedRequest where
  id := id
  jobType := jobType
  jobVersion := ""
  jobDefinitionID := jobType
  parentID := ""
  userID := "u1"
  organizationID := ""
  cascadeCancel := false
  params := []

def plainText : Template := fun text _ => .ok text

def forkTask : TaskDefinition :=
  { shellTask "fork" "" with method := .forkJob }

def releaseJobs : List StoredJob :=
  [forkingJob "release" forkTask { method := .forkJob, forkJobType := "build" } (by decide),
    forkingJob "build" forkTask
      { method := .forkJob, forkJobType := "test"
        subWorkflow := some ⟨[⟨"ParentJobType_release", "release"⟩]⟩ } (by decide),
    forkingJob "test" (shellTask "run" "") { method := .shell } (by decide)]

theorem userSubmitted_release : UserSubmitted releaseJobs (submittedTo "release" "r1") :=
  ⟨QueryContext.newQueryContextFromIDs "u1" "", submittedTo "release" "", ⟨none, none, "r1"⟩,
    submittedTo "release" "r1", [], by rfl, rfl⟩

def release : Member := ⟨submittedTo "release" "r1", []⟩

def releaseBuild : Member :=
  ⟨{ submittedTo "build" "r2" with
      parentID := "r1"
      cascadeCancel := true
      params := [⟨"ForkedJob", "true"⟩, ⟨"ParentJobType_r1", "release"⟩] }, release.chain⟩

theorem bounded_release : ∃ family : Family, (system releaseJobs plainText).Reachable family ∧
      (∃ m ∈ family, m.chain.map SubmittedRequest.jobType = ["test", "build", "release"]) ∧
      ∀ m ∈ family, m.Bounded := by
  obtain ⟨family, hreach, hchain⟩ := TransitionSystem.exists_reachableWith
    (S := system releaseJobs plainText) (s := [release])
    (fun _ action => Forwards releaseJobs plainText action)
    (fun family => ∃ m ∈ family, m.chain.map jobType = ["test", "build", "release"])
    [⟨release, "fork", [], .forkJob, ⟨none, none, "r2"⟩⟩,
      ⟨releaseBuild, "fork", [], .forkJob, ⟨none, none, "r3"⟩⟩]
    ⟨_, userSubmitted_release, rfl⟩ (by decide)
  exact ⟨family, hreach.mono fun _ _ _ => trivial, hchain,
    (bounded_of_forwards releaseJobs plainText hreach).1⟩

theorem exists_freshID (family : Family) : ∃ id, ∀ m ∈ family, m.request.id ≠ id := by
  have : Infinite String :=
    Infinite.of_injective String.ofList fun _ _ h => String.ofList_injective h
  obtain ⟨id, hid⟩ := Infinite.exists_notMem_finset (family.map fun m => m.request.id).toFinset
  refine ⟨id, fun m hm heq => hid ?_⟩
  rw [mem_toFinset, ← heq]
  exact mem_map.mpr ⟨m, hm, rfl⟩

theorem exists_chain {P : SubmittedRequest → Prop} {root : SubmittedRequest}
    (hroot : UserSubmitted defs root) (hP : P root)
    (hfork : ∀ m : Member, P m.request → ∀ id, ∃ action child, action.parent = m ∧
      child? defs parseTemplate action = some child ∧ child.id = id ∧ P child) (n : ℕ) :
    ∃ family, (system defs parseTemplate).Reachable family ∧
      ∃ m ∈ family, m.ancestors.length = n ∧ ∀ r ∈ m.chain, P r := by
  induction n with
  | zero =>
    refine ⟨[⟨root, []⟩], .init ⟨root, hroot, rfl⟩, ⟨root, []⟩, mem_singleton_self _, rfl, ?_⟩
    intro r hr
    rw [mem_singleton.mp hr]
    exact hP
  | succ n ih =>
    obtain ⟨family, hreach, m, hm, hlen, hchain⟩ := ih
    obtain ⟨id, hid⟩ := exists_freshID family
    obtain ⟨action, child, rfl, hchild, rfl, hP'⟩ :=
      hfork m (hchain m.request mem_cons_self) id
    refine ⟨⟨child, action.parent.chain⟩ :: family, hreach.step (a := action) trivial ?_,
      ⟨child, action.parent.chain⟩, mem_cons_self, ?_, ?_⟩
    · have hfresh : (family.all fun m => m.request.id != child.id) = true := by
        simpa [all_eq_true] using hid
      simp only [system, step, if_pos hm, hchild, if_pos hfresh]
    · simp [Member.chain, hlen]
    · exact forall_mem_cons.mpr ⟨hP', hchain⟩

def rebuild : StoredJob :=
  forkingJob "build" { shellTask "again" "" with fanOut := some (.ok ()) }
    { method := .fanOutJob, fanOut := some ⟨"items", "item", 0, "build", ""⟩ } (by decide)

def IsFor (jobType : String) (r : SubmittedRequest) : Prop :=
  r.jobType = jobType ∧ r.jobDefinitionID = jobType ∧ r.userID = "u1" ∧ r.organizationID = ""

def user : QueryContext := QueryContext.newQueryContextFromIDs "u1" ""

def rebuildRequest (rid : String) : TaskRequest where
  userID := "u1"
  organizationID := ""
  jobRequestID := rid
  jobType := "build"
  taskType := "again"
  vars := []
  executorOpts := { method := .fanOutJob, fanOut := some ⟨"items", "item", 0, "build", ""⟩ }

variable {r : SubmittedRequest}

theorem buildTaskRequest_rebuild (h : IsFor "build" r) :
    buildTaskRequest [rebuild] r "again" [] = some (rebuildRequest r.id) := by
  obtain ⟨rid, rtype, version, definition, parent, user, organization, cascade, params⟩ := r
  obtain ⟨rfl, rfl, rfl, rfl⟩ := h
  rfl

def rebuilt (rid id : String) : SubmittedRequest :=
  { submittedTo "build" id with
    parentID := rid
    cascadeCancel := true
    params := [⟨"ForkedJob", "true"⟩, ⟨"item", "x"⟩, ⟨"FanOutIndex_0", "0"⟩] }

theorem spawnChildJob_rebuild (rid id : String) :
    FanOutTasklet.spawnChildJob [rebuild] plainText (rebuildRequest rid)
      ⟨"items", "item", 0, "build", ""⟩ "x" 0 ⟨none, none, id⟩ = .ok (rebuilt rid id) := by
  have hjob : getJobDefinitionByType [rebuild] user "build" "" = .ok rebuild := by rfl
  have hnew : newJobRequestFromDefinition rebuild = .ok (submittedTo "build" "") := by rfl
  refine bind_eq_ok.mpr ⟨rebuild, hjob, ?_⟩
  refine bind_eq_ok.mpr ⟨submittedTo "build" "", hnew, ?_⟩
  refine bind_eq_ok.mpr ⟨(rebuilt rid "").params, by rfl, ?_⟩
  refine saveJobRequest_eq_ok (rebuilt rid "") id hjob ?_ ?_
  · exact not_mem_nil
  · exact Nat.zero_le _

theorem child?_rebuild (m : Member) (h : IsFor "build" m.request) (id : String) :
    ∃ action child, action.parent = m ∧ child? [rebuild] plainText action = some child ∧
      child.id = id ∧ IsFor "build" child := by
  refine ⟨⟨m, "again", [], .fanOut "x" 0, ⟨none, none, id⟩⟩, rebuilt m.request.id id, rfl, ?_, rfl,
    rfl, rfl, rfl, rfl⟩
  refine Option.bind_eq_some_iff.mpr ⟨_, buildTaskRequest_rebuild h, ?_⟩
  have hexe : FanOutTasklet.execute [rebuild] plainText (rebuildRequest m.request.id) "x" 0
      ⟨none, none, id⟩ = .ok (some (rebuilt m.request.id id)) := by
    refine seq_eq_ok.mpr ⟨by rfl, ?_⟩
    rw [spawnChildJob_rebuild]
    rfl
  change (FanOutTasklet.execute _ _ _ _ _ _).toOption.join = _
  rw [hexe]
  rfl

def ping : StoredJob :=
  forkingJob "ping" forkTask { method := .forkJob, forkJobType := "pong" } (by decide)

def pong : StoredJob :=
  forkingJob "pong" forkTask { method := .forkJob, forkJobType := "ping" } (by decide)

def forkRequest (rid mine other : String) : TaskRequest where
  userID := "u1"
  organizationID := ""
  jobRequestID := rid
  jobType := mine
  taskType := "fork"
  vars := []
  executorOpts := { method := .forkJob, forkJobType := other }

def forked (rid id mine other : String) : SubmittedRequest :=
  { submittedTo other id with
    parentID := rid
    cascadeCancel := true
    params := [⟨forkedJob, "true"⟩, ⟨parentJobType ++ "_" ++ rid, mine⟩] }

theorem recorded_forked (rid id mine other : String) :
    (forked rid id mine other).recorded = [mine] := by
  have hpar : namesParent ⟨parentJobType ++ "_" ++ rid, mine⟩ = true := by
    rw [String.append_assoc]
    exact startsWith_append parentJobType _
  have hforked : namesParent ⟨forkedJob, "true"⟩ = false := by decide
  simp [recorded, forked, hpar, hforked]

variable {mine : String}

theorem addParamOrSkip_parent (rid : String) (hmine : mine.utf8ByteSize ≤ maxConfigValueLength) :
    addParamOrSkip [⟨forkedJob, "true"⟩] (parentJobType ++ "_" ++ rid) mine =
      [⟨forkedJob, "true"⟩, ⟨parentJobType ++ "_" ++ rid, mine⟩] := by
  have hname : (forkedJob == parentJobType ++ "_" ++ rid) = false := by
    refine beq_false_of_ne fun heq => ?_
    have hstart := startsWith_append parentJobType ("_" ++ rid)
    rw [← String.append_assoc, ← heq] at hstart
    exact absurd hstart (by decide)
  unfold addParamOrSkip addParam newJobRequestParam
  rw [if_neg (Nat.not_lt.mpr hmine)]
  simp [Except.map, Except.toOption, hname]

variable {other : String} (hother : other ≠ "") (hne : other ≠ mine)
  (hmine : mine.utf8ByteSize ≤ maxConfigValueLength)
  (hjob : getJobDefinitionByType defs user other "" = .ok job)
  (hnew : newJobRequestFromDefinition job = .ok (submittedTo other "")) (hid : job.id = other)
include hother hne hmine hjob hnew hid

theorem execute_forkJob (rid id : String) :
    JobForkTasklet.execute defs plainText (forkRequest rid mine other) ⟨none, none, id⟩ =
      .ok (forked rid id mine other) := by
  have hrec := recorded_forked rid "" mine other
  refine (if_neg hother).trans ?_
  refine bind_eq_ok.mpr ⟨job, hjob, ?_⟩
  refine bind_eq_ok.mpr ⟨submittedTo other "", hnew, ?_⟩
  refine bind_eq_ok.mpr ⟨[], by rfl, ?_⟩
  change saveJobRequest defs user { submittedTo other "" with
    parentID := rid
    cascadeCancel := true
    params := addParamOrSkip [⟨forkedJob, "true"⟩] (parentJobType ++ "_" ++ rid) mine } _ = _
  rw [addParamOrSkip_parent rid hmine]
  refine (saveJobRequest_eq_ok (forked rid "" mine other) id hjob ?_ ?_).trans ?_
  · rw [hrec]
    exact fun hmem => hne (mem_singleton.mp hmem)
  · rw [hrec, length_singleton]
    decide
  · rw [hid]
    rfl

theorem child?_forked {m : Member} {id : String}
    (hbuild : buildTaskRequest defs m.request "fork" [] =
      some (forkRequest m.request.id mine other)) :
    child? defs plainText ⟨m, "fork", [], .forkJob, ⟨none, none, id⟩⟩ =
      some (forked m.request.id id mine other) := by
  refine Option.bind_eq_some_iff.mpr ⟨_, hbuild, ?_⟩
  change (JobForkTasklet.execute _ _ _ _).toOption = _
  rw [execute_forkJob hother hne hmine hjob hnew hid]
  rfl

omit hother hne hmine hjob hnew hid

theorem child?_pingAndPong (m : Member) (h : IsFor "ping" m.request ∨ IsFor "pong" m.request)
    (id : String) :
    ∃ action child, action.parent = m ∧ child? [ping, pong] plainText action = some child ∧
      child.id = id ∧ (IsFor "ping" child ∨ IsFor "pong" child) := by
  obtain ⟨⟨rid, rtype, version, definition, parent, user, organization, cascade, params⟩, _⟩ := m
  rcases h with ⟨rfl, rfl, rfl, rfl⟩ | ⟨rfl, rfl, rfl, rfl⟩
  · refine ⟨⟨_, "fork", [], .forkJob, ⟨none, none, id⟩⟩, forked rid id "ping" "pong", rfl, ?_, rfl,
      .inr ⟨rfl, rfl, rfl, rfl⟩⟩
    exact child?_forked (by decide) (by decide) (by decide) rfl rfl (by rfl) rfl
  · refine ⟨⟨_, "fork", [], .forkJob, ⟨none, none, id⟩⟩, forked rid id "pong" "ping", rfl, ?_, rfl,
      .inl ⟨rfl, rfl, rfl, rfl⟩⟩
    exact child?_forked (by decide) (by decide) (by decide) rfl rfl (by rfl) rfl

/-- A build that fans out into itself, and two jobs that fork each other, make chains of any
length. -/
theorem unbounded_chains : (∀ n, ∃ family, (system [rebuild] plainText).Reachable family ∧
      ∃ m ∈ family, m.ancestors.length = n ∧ ∀ r ∈ m.chain, r.jobType = "build") ∧
    ∀ n, ∃ family, (system [ping, pong] plainText).Reachable family ∧
      ∃ m ∈ family, m.ancestors.length = n ∧ ∀ r ∈ m.chain, r.jobType ∈ ["ping", "pong"] := by
  constructor
  · intro n
    have hroot : UserSubmitted [rebuild] (submittedTo "build" "r1") :=
      ⟨user, submittedTo "build" "", ⟨none, none, "r1"⟩, _, [], by rfl, rfl⟩
    obtain ⟨family, hreach, m, hm, hlen, hchain⟩ :=
      exists_chain hroot ⟨rfl, rfl, rfl, rfl⟩ child?_rebuild n
    exact ⟨family, hreach, m, hm, hlen, fun r hr => (hchain r hr).1⟩
  · intro n
    have hroot : UserSubmitted [ping, pong] (submittedTo "ping" "r1") :=
      ⟨user, submittedTo "ping" "", ⟨none, none, "r1"⟩, _, [], by rfl, rfl⟩
    obtain ⟨family, hreach, m, hm, hlen, hchain⟩ :=
      exists_chain (P := fun r => IsFor "ping" r ∨ IsFor "pong" r) hroot
        (.inl ⟨rfl, rfl, rfl, rfl⟩) child?_pingAndPong n
    refine ⟨family, hreach, m, hm, hlen, fun r hr => ?_⟩
    rcases hchain r hr with h | h
    · simp [h.1]
    · simp [h.1]

end Forking

end Formicary

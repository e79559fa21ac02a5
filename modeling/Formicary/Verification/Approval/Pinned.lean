import Formicary.Model.PolicyLookup
import Formicary.Verification.Approval.Vote
import Formicary.Verification.Definition.Versions

/-! # Votes and the definition a request is pinned to

The outcome of votes depends on definitions by the policies that are looked up only. -/

namespace Formicary.Approval

variable {yaml : String → String → Option ApprovalPolicy} {indexed : Bool}

/-- The policy of the definition that the request was created for. -/
def pinnedPolicy (yaml : String → String → Option ApprovalPolicy)
    (definitions : JobDefinitionRepository) (_ : QueryContext) (request : JobRequest)
    (taskType : String) : Option ApprovalPolicy :=
  (definitions.find? request.jobDefinitionID).bind fun job => taskPolicy yaml job taskType

section

variable {db : Database} {c : VoteClock} {qc : QueryContext} {req : VoteRequest}
  {policies policies' : QueryContext → JobRequest → String → Option ApprovalPolicy}

/-- Two ways to look up policies agree on the request and the task of a vote. -/
def Agree (db : Database) (qc : QueryContext) (req : VoteRequest)
    (policies policies' : QueryContext → JobRequest → String → Option ApprovalPolicy) : Prop :=
  ∀ request ∈ (JobRequestRepository.get db qc req.requestID).toOption,
    policies qc request req.taskType = policies' qc request req.taskType

instance : Decidable (Agree db qc req policies policies') := by
  unfold Agree
  infer_instance

theorem castApprovalVote_congr (h : Agree db qc req policies policies') :
    castApprovalVote db c policies qc req = castApprovalVote db c policies' qc req := by
  have hprep : prepareVote db c policies qc req = prepareVote db c policies' qc req := by
    unfold Agree at h
    unfold prepareVote
    cases hget : JobRequestRepository.get db qc req.requestID with
    | error => rfl
    | ok request =>
      rw [hget] at h
      dsimp only
      rw [h request rfl]
  rw [castApprovalVote, castApprovalVote, hprep]

variable {status : ApprovalStatus}

theorem policy_of_castVote {call : VoteCall}
    (h : (castVote db call c).2 = .ok status) : status.policy = call.policy := by
  unfold castVote at h
  cases hearly : earlyResult db call with
  | some =>
    rw [hearly] at h
    unfold earlyResult at hearly
    subst h
    split at hearly
    · cases hearly
    split at hearly
    · cases hearly
      rfl
    · split at hearly <;> cases hearly
  | none =>
    rw [hearly] at h
    dsimp only at h
    split at h <;> cases h
    rfl

theorem policy_of_castApprovalVote (h : (castApprovalVote db c policies qc req).2 = .ok status) :
    ∃ request, JobRequestRepository.get db qc req.requestID = .ok request ∧
      status.policy = policies qc request req.taskType := by
  unfold castApprovalVote at h
  cases hprep : prepareVote db c policies qc req with
  | mk healed prepared =>
    rw [hprep] at h
    cases prepared with
    | error => cases h
    | ok =>
      have hpol := policy_of_castVote h
      unfold prepareVote at hprep
      split at hprep
      · cases hprep
      split at hprep
      · cases hprep
      next request hget =>
      refine ⟨request, hget, ?_⟩
      dsimp only at hprep
      split at hprep
      · cases hprep
      split at hprep <;> cases hprep
      exact hpol

theorem agree_of_castApprovalVote_eq
    (h : castApprovalVote db c policies qc req = castApprovalVote db c policies' qc req)
    (hok : (castApprovalVote db c policies qc req).2 = .ok status) :
    Agree db qc req policies policies' := by
  obtain ⟨request, hget, hpol⟩ := policy_of_castApprovalVote hok
  obtain ⟨request', hget', hpol'⟩ := policy_of_castApprovalVote (h ▸ hok)
  cases Except.ok.inj (hget.symm.trans hget')
  intro other hother
  rw [hget] at hother
  cases hother
  rw [← hpol, hpol']

end

namespace Approvals

/-- A vote is cast under the policy of the definition that its request was created for, among the
definitions there were then. -/
def Pinned (yaml : String → String → Option ApprovalPolicy)
    (definitions : JobDefinitionRepository) (s : Approvals) : Action → Prop
  | .definition _ => True
  | .vote _ qc req =>
    Agree s.db qc req (policyByType yaml s.definitions.repo) (pinnedPolicy yaml definitions)

instance (definitions : JobDefinitionRepository) (s : Approvals) (action : Action) :
    Decidable (Pinned yaml definitions s action) := by
  cases action <;> dsimp only [Pinned] <;> infer_instance

abbrev Vote := VoteClock × QueryContext × VoteRequest

def votes (actions : List Action) : List Vote :=
  actions.filterMap fun action =>
    match action with
    | .definition _ => none
    | .vote c qc req => some (c, qc, req)

/-- The database and the results of votes, without definitions. -/
abbrev Outcome := Database × List (Except Error ApprovalStatus)

def outcome (s : Approvals) : Outcome := (s.db, s.results)

def castUnder (policies : QueryContext → JobRequest → String → Option ApprovalPolicy)
    (o : Outcome) (vote : Vote) : Outcome :=
  let (db, result) := castApprovalVote o.1 vote.1 policies vote.2.1 vote.2.2
  (db, result :: o.2)

theorem outcome_of_pinned {definitions : JobDefinitionRepository} {s s' : Approvals}
    {actions : List Action}
    (hrun : (system yaml indexed).runWith (fun _ _ => True) s actions = some s')
    (hpin : (system yaml indexed).Meets (Pinned yaml definitions) s actions) :
    s'.outcome = (votes actions).foldl (castUnder (pinnedPolicy yaml definitions)) s.outcome := by
  induction actions generalizing s with
  | nil =>
    cases hrun
    rfl
  | cons action actions ih =>
    obtain ⟨-, s₁, hstep, hrest⟩ := TransitionSystem.runWith_cons_eq_some.mp hrun
    obtain ⟨hfirst, hlater⟩ := hpin s₁ hstep
    rw [ih hrest hlater]
    cases action with
    | definition =>
      obtain ⟨definitions', -, rfl⟩ := Option.map_eq_some_iff.mp hstep
      rfl
    | vote c qc req =>
      have hcast : s₁.outcome =
          castUnder (policyByType yaml s.definitions.repo) s.outcome (c, qc, req) :=
        (congrArg outcome (Option.some.inj hstep)).symm
      have hagree : Agree s.outcome.1 qc req (policyByType yaml s.definitions.repo)
          (pinnedPolicy yaml definitions) := hfirst
      simp only [castUnder, castApprovalVote_congr hagree] at hcast
      rw [hcast]
      rfl

/-- Two runs with the same votes have the same outcome, whatever definitions are saved between them,
if each vote is cast under the policy of the definition that the request was created for. A vote
that is answered with a status as under that policy was cast under it. -/
theorem votes_pinned {definitions : JobDefinitionRepository} {s s₁ s₂ : Approvals}
    {actions actions' : List Action} (hvotes : votes actions = votes actions')
    (hrun : (system yaml indexed).runWith (fun _ _ => True) s actions = some s₁)
    (hrun' : (system yaml indexed).runWith (fun _ _ => True) s actions' = some s₂)
    (hpinned : (system yaml indexed).Meets (Pinned yaml definitions) s actions)
    (hpinned' : (system yaml indexed).Meets (Pinned yaml definitions) s actions') :
    s₁.outcome = s₂.outcome ∧
      ∀ (s : Approvals) (c : VoteClock) (qc : QueryContext) (req : VoteRequest)
        (status : ApprovalStatus),
        castApprovalVote s.db c (policyByType yaml s.definitions.repo) qc req =
          castApprovalVote s.db c (pinnedPolicy yaml definitions) qc req →
        (castApprovalVote s.db c (policyByType yaml s.definitions.repo) qc req).2 = .ok status →
        Pinned yaml definitions s (.vote c qc req) := by
  refine ⟨?_, fun s c qc req status heq hok => agree_of_castApprovalVote_eq heq hok⟩
  rw [outcome_of_pinned hrun hpinned, outcome_of_pinned hrun' hpinned', hvotes]

/-- The YAML of the first version asks for two approvals by named users, that of any other for one
by anybody. -/
def strictThenWeak (rawYaml _ : String) : Option ApprovalPolicy :=
  if rawYaml = "strict" then some (policyOver "ana,ben" 2 false) else some (policyOver "" 1 false)

def reviewed (jobType rawYaml : String) : JobDefinitionRow :=
  { JobDefinitionRepository.uploaded rawYaml with
    definition :=
      { JobSupervisor.jobOf [JobSupervisor.shellTask "review" ""] with
        jobType := jobType
        rawYaml := rawYaml } }

def member : QueryContext := .newQueryContextFromIDs "u1" "o1"

/-- A review waits for approval under the first version. -/
def underReview : Approvals where
  definitions := ⟨(JobDefinitionRepository.save Table.empty false member
    (reviewed "build" "strict") "d1").1, none⟩
  db := review.database
  results := []

def strangerApproves : Action :=
  .vote {} member ⟨"r1", "review", "zoe", "zoe", .approved, ""⟩

def otherJobSaved : List Action :=
  [.definition (.save member (reviewed "deploy" "weak") "d2"), strangerApproves]

def sameJobSaved : List Action :=
  [.definition (.save member (reviewed "build" "weak") "d2"), strangerApproves]

/-- A version of another job makes no difference. -/
theorem votes_pinned_other_job :
    ∃ s₁ s₂, (system strictThenWeak false).runWith (fun _ _ => True) underReview
        [strangerApproves] = some s₁ ∧
      (system strictThenWeak false).runWith (fun _ _ => True) underReview otherJobSaved = some s₂ ∧
      s₁.outcome = s₂.outcome := by
  have hpin : (system strictThenWeak false).Meets
      (Pinned strictThenWeak underReview.definitions.repo) underReview [strangerApproves] := by
    decide
  have hpin' : (system strictThenWeak false).Meets
      (Pinned strictThenWeak underReview.definitions.repo) underReview otherJobSaved := by
    decide
  have hvotes : votes [strangerApproves] = votes otherJobSaved := rfl
  exact ⟨_, _, rfl, rfl, (votes_pinned hvotes rfl rfl hpin hpin').1⟩

/-- A later version of the same job lets the vote of somebody through whom the version of the
request does not name. -/
theorem votes_not_pinned : votes [strangerApproves] = votes sameJobSaved ∧
      ((system strictThenWeak false).runWith (fun _ _ => True) underReview
        [strangerApproves]).map (fun s => s.results.map Except.toBool) = some [false] ∧
      ((system strictThenWeak false).runWith (fun _ _ => True) underReview
        sameJobSaved).map (fun s => s.results.map Except.toBool) = some [true] := by
  refine ⟨rfl, ?_, ?_⟩ <;> decide

end Approvals

end Formicary.Approval

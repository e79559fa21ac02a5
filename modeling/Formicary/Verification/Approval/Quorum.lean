import Formicary.Verification.Approval.Vote

/-! # Quorums are made of authorized votes

The calls on any number of tasks, one after the other, with a record of which call cast which vote.
-/

namespace Formicary.Approval

open RequestState List

/-- The database, and the votes recorded so far with the calls that cast them. -/
structure Poll where
  db : Database
  cast : List (VoteCall × ApprovalVote)

namespace Poll

variable (policyOf : String → Option ApprovalPolicy)

def step (s : Poll) (action : VoteCall × VoteClock) : Option Poll :=
  if action.1.policy = policyOf action.1.taskExecutionID then
    let db := (castVote s.db action.1 action.2).1
    let new := !hasVoted s.db action.1.taskExecutionID action.1.voterID &&
      hasVoted db action.1.taskExecutionID action.1.voterID
    some { db := db
           cast := if new then (action.1, action.1.vote action.2.now) :: s.cast else s.cast }
  else none

/-- Nobody has voted yet. -/
structure Initial (s : Poll) : Prop where
  votes : s.db.votes.rows = []
  cast : s.cast = []

def system : TransitionSystem Poll (VoteCall × VoteClock) where
  init := Initial
  step := step policyOf

/-- The policy lets the caller vote under the id: it restricts nobody, it lists the id, or the id
is the caller's own and the caller has one of the roles. -/
def Authorizes (p : ApprovalPolicy) (qc : QueryContext) (voterID : String) : Prop :=
  (p.allowedUserList = [] ∧ p.allowedRoleList = []) ∨ voterID ∈ p.allowedUserList ∨
    (voterID = qc.getUserID ∧ ∃ user ∈ qc.user, ∃ role ∈ p.allowedRoleList,
        user.roles.hasRole (Text.trimSpace role) [] = true)

def Quorum (p : ApprovalPolicy) (s : Poll) (taskExecutionID : String) : Prop :=
  ∃ votes : List (VoteCall × ApprovalVote), votes ⊆ s.cast ∧
    (∀ v ∈ votes, v.2 ∈ s.db.votes ∧ v.2.taskExecutionID = taskExecutionID ∧
      v.2.decision = .approved ∧ Authorizes p v.1.qc v.2.voterID) ∧
    (votes.map fun v => v.2.voterID).Nodup ∧ (votes.map fun v => v.1.qc.getUserID).Nodup ∧
    max 1 p.minApprovals ≤ votes.length

def requestState (s : Poll) (id : String) : Option RequestState :=
  (s.db.requests.find? id).map JobRequest.jobState

/-- A call that releases a waiting request does so on a quorum. -/
def QuorumSound (s : Poll) (action : VoteCall × VoteClock) : Prop :=
  ∀ s' ∈ step policyOf s action, s.requestState action.1.request.id = some manualApprovalRequired →
    s'.requestState action.1.request.id = some pending →
    ∃ p ∈ action.1.policy, Quorum p s' action.1.taskExecutionID

/-- The caller votes under their own id, and the policy asks for an approval or takes the first
rejection for one. -/
def Proper (_ : Poll) (action : VoteCall × VoteClock) : Prop :=
  action.1.voterID = action.1.qc.getUserID ∧ ∀ p ∈ action.1.policy,
      1 ≤ p.minApprovals ∨ p.requireUnanimous = true ∨ p.allowedUserList = []

instance (s : Poll) (action : VoteCall × VoteClock) : Decidable (Proper s action) :=
  inferInstanceAs (Decidable (_ ∧ _))

variable {policyOf} {s s' : Poll} {call : VoteCall} {c : VoteClock} {p : ApprovalPolicy}

theorem authorizes_of_authorizeVoter (h : authorizeVoter call.qc (some p) call.voterID = .ok ())
    (hown : call.voterID = call.qc.getUserID) : Authorizes p call.qc call.voterID := by
  unfold authorizeVoter at h
  split at h
  · cases h
  dsimp only at h
  split_ifs at h with hopen huser hrole
  · simp only [Bool.and_eq_true, List.isEmpty_iff] at hopen
    exact .inl hopen
  · obtain ⟨uid, huid, he⟩ := List.any_eq_true.mp huser
    simp only [← hown, Bool.or_self, beq_iff_eq] at he
    exact .inr (.inl (he ▸ huid))
  · obtain ⟨user, huser, hroles⟩ := (Option.any_eq_true _ _).mp hrole
    obtain ⟨role, hmem, hhas⟩ := List.any_eq_true.mp hroles
    exact .inr (.inr ⟨hown, user, huser, role, hmem, hhas⟩)

variable {approvals rejections : ℕ}

theorem judge_eq_approve (h : call.judge approvals rejections = some .approve) :
    isRejected approvals rejections call.policy = false ∧ minRequired call.policy ≤ approvals := by
  unfold VoteCall.judge at h
  split at h
  · cases h
  next hrej =>
  split at h
  · next hmin => exact ⟨by simpa using hrej, hmin⟩
  · cases h

theorem max_le_of_judge (hp : call.policy = some p)
    (hprop : 1 ≤ p.minApprovals ∨ p.requireUnanimous = true ∨ p.allowedUserList = [])
    (hvoted : 1 ≤ approvals + rejections)
    (h : call.judge approvals rejections = some .approve) : max 1 p.minApprovals ≤ approvals := by
  obtain ⟨hrej, hmin⟩ := judge_eq_approve h
  rw [hp] at hrej hmin
  have hle : p.minApprovals ≤ approvals := hmin
  refine max_le ?_ hle
  by_contra hzero
  have hnone : rejections ≠ 0 := by omega
  rcases hprop with hone | hunan | hopen
  · omega
  · simp [isRejected, hnone, hunan] at hrej
  · simp [isRejected, hnone, hopen] at hrej

/-- The recorded votes are those of the calls that cast them, under the callers' own ids and
authorized by the policies. -/
structure Inv (policyOf : String → Option ApprovalPolicy) (s : Poll) : Prop where
  rows : s.db.votes.rows = s.cast.map Prod.snd
  own : ∀ v ∈ s.cast, v.2.voterID = v.1.qc.getUserID
  authorized : ∀ v ∈ s.cast, ∀ p ∈ policyOf v.2.taskExecutionID, Authorizes p v.1.qc v.2.voterID

/-- A step either leaves the database alone or records the call's vote and settles the matter. -/
inductive Steps (s s' : Poll) (call : VoteCall) (c : VoteClock) : Prop where
  | refused (hdb : s'.db = s.db) (hcast : s'.cast = s.cast)
  | voted (saved : Database) (haccepted : Accepted s.db call)
      (hrequests : saved.requests = s.db.requests)
      (hrows : s'.db.votes.rows = call.vote c.now :: s.db.votes.rows)
      (hcast : s'.cast = (call, call.vote c.now) :: s.cast)
      (hcommits : Commits call.request call.taskType call.taskExecutionID saved s'.db
        ((call.judge (tally s.db call .approved) (tally s.db call .rejected)).map
          fun v => (v, call.qc)))

variable {db : Database}

theorem settle_votes (approvals rejections : ℕ) :
    (settle db call c approvals rejections).votes = db.votes := by
  unfold settle
  split
  · rfl
  · split <;> rfl

theorem hasVoted_of_mem (h : call.vote c.now ∈ db.votes) :
    hasVoted db call.taskExecutionID call.voterID = true := by
  have hfind : db.votes.find? (call.taskExecutionID, call.voterID) = some (call.vote c.now) :=
    Table.find?_eq_some_iff.mpr ⟨h, rfl⟩
  simp [hasVoted, hfind]

theorem step_spec (he : step policyOf s (call, c) = some s') :
    call.policy = policyOf call.taskExecutionID ∧ Steps s s' call c := by
  unfold step at he
  split at he
  · next hpol =>
    refine ⟨hpol, ?_⟩
    have hrefused : (castVote s.db call c).1 = s.db → Steps s s' call c := by
      intro hdb
      simp only [hdb, Bool.not_and_self, Bool.false_eq_true, if_false, Option.some.injEq] at he
      exact .refused (by rw [← he]) (by rw [← he])
    cases hearly : earlyResult s.db call with
    | some => exact hrefused (by simp [castVote, hearly])
    | none =>
      have hacc := earlyResult_eq_none hearly
      cases hsave : saveVote s.db (call.vote c.now) with
      | error => exact hrefused (by simp [castVote, hearly, hsave])
      | ok saved =>
        have hrows := hacc.rows hsave
        have hdb : (castVote s.db call c).1 = settle saved call c
            (tally s.db call .approved) (tally s.db call .rejected) := by
          simp [castVote, hearly, hsave, countVotes_saved hrows]
        have hnew : hasVoted (castVote s.db call c).1 call.taskExecutionID call.voterID = true := by
          apply hasVoted_of_mem (c := c)
          rw [← Table.mem_rows, hdb, settle_votes, hrows]
          exact mem_cons_self
        simp only [hnew, hacc.fresh, Bool.not_false, Bool.and_true, if_true,
          Option.some.injEq] at he
        subst he
        refine .voted saved hacc (saveVote_tables hsave).1 ?_ rfl ?_
        · simp only [hdb, settle_votes, hrows]
        · simp only [hdb]
          exact settle_commits _ _
  · cases he

theorem inv_steps (h : Inv policyOf s) (hpol : call.policy = policyOf call.taskExecutionID)
    (hown : call.voterID = call.qc.getUserID) (hsteps : Steps s s' call c) : Inv policyOf s' := by
  cases hsteps with
  | refused hdb hcast =>
    exact ⟨by rw [hdb, hcast]; exact h.rows, hcast ▸ h.own, hcast ▸ h.authorized⟩
  | voted saved hacc _ hrows hcast =>
    refine ⟨by rw [hrows, hcast, h.rows]; rfl, ?_, ?_⟩
    · rw [hcast]
      exact forall_mem_cons.mpr ⟨hown, h.own⟩
    rw [hcast]
    refine forall_mem_cons.mpr ⟨fun p hp => ?_, h.authorized⟩
    have hauth := hacc.authorized
    rw [hpol, show policyOf call.taskExecutionID = some p from hp] at hauth
    exact authorizes_of_authorizeVoter hauth hown

variable {taskExecutionID : String}

theorem quorum_of_countVotes (h : Inv policyOf s) (hp : policyOf taskExecutionID = some p)
    (hcount : max 1 p.minApprovals ≤ countVotes s.db taskExecutionID .approved) :
    Quorum p s taskExecutionID := by
  set votes := s.cast.filter fun v =>
    v.2.taskExecutionID == taskExecutionID && v.2.decision == .approved with hvotes
  have hmem : ∀ v ∈ votes,
      v ∈ s.cast ∧ v.2.taskExecutionID = taskExecutionID ∧ v.2.decision = .approved := by
    simp only [hvotes, mem_filter, Bool.and_eq_true, beq_iff_eq]
    exact fun v hv => hv
  have hids : (votes.map fun v => v.2.voterID).Nodup := by
    have hkeys : (votes.map (ApprovalVote.key ∘ Prod.snd)).Nodup := by
      have hnodup := s.db.votes.nodup
      rw [h.rows, map_map] at hnodup
      exact hnodup.sublist (filter_sublist.map _)
    apply List.Nodup.of_map fun voterID => (taskExecutionID, voterID)
    rw [map_map]
    convert hkeys using 1
    exact map_congr_left fun v hv => by simp [ApprovalVote.key, (hmem v hv).2.1]
  refine ⟨votes, filter_subset_self _, fun v hv => ?_, hids, ?_, ?_⟩
  · obtain ⟨hv, htask, hdecision⟩ := hmem v hv
    have hrow : v.2 ∈ s.db.votes := by
      rw [← Table.mem_rows, h.rows]
      exact mem_map_of_mem hv
    exact ⟨hrow, htask, hdecision, h.authorized v hv p (by rw [htask, hp]; rfl)⟩
  · rwa [← map_congr_left fun v hv => h.own v (hmem v hv).1]
  · have hlen : countVotes s.db taskExecutionID .approved = votes.length := by
      rw [countVotes, Table.affected, h.rows, countP_map, countP_eq_length_filter]
      rfl
    rwa [← hlen]

theorem Commits.eq_approve {request : JobRequest} {taskType : String}
    {db' : Database} {v : Option Verdict} {qc : QueryContext}
    (h : Commits request taskType taskExecutionID db db' (v.map fun v => (v, qc))) {k : String}
    (hbef : (db.requests.find? k).map JobRequest.jobState ≠ some pending)
    (hafter : (db'.requests.find? k).map JobRequest.jobState = some pending) :
    v = some .approve := by
  cases v with
  | none =>
    cases h with
    | nothing hr => exact absurd (hr ▸ hafter) hbef
  | some =>
    cases h with
    | approve => rfl
    | reject _ _ _ _ _ h =>
      rw [h] at hafter
      simp only [finalizeRejection, Table.find?_update, Option.map_map] at hafter
      obtain ⟨r, hr, hstate⟩ := Option.map_eq_some_iff.mp hafter
      dsimp only [Function.comp_apply] at hstate
      split at hstate
      · cases hstate
      · exact absurd (by rw [hr]; exact congrArg some hstate) hbef

theorem quorumSound_step (h : Inv policyOf s) {action : VoteCall × VoteClock}
    (hok : Proper s action) (he : step policyOf s action = some s') :
    QuorumSound policyOf s action ∧ Inv policyOf s' := by
  obtain ⟨call, c⟩ := action
  obtain ⟨hpol, hsteps⟩ := step_spec he
  have hinv := inv_steps h hpol hok.1 hsteps
  refine ⟨?_, hinv⟩
  intro s'' he' hbef hafter
  obtain rfl : s' = s'' := Option.some.inj (he.symm.trans he')
  cases hsteps with
  | refused hdb =>
    rw [requestState, hdb] at hafter
    simp [requestState, hafter] at hbef
  | voted saved hacc hreqs hrows hcast hcomm =>
    have hjudge := Commits.eq_approve hcomm
      (by rw [hreqs]; exact fun hp => by simp [requestState, hp] at hbef) hafter
    have hvoted : 1 ≤ tally s.db call .approved + tally s.db call .rejected := by
      rcases hacc.decision with hd | hd <;> simp [tally, hd] <;> omega
    obtain ⟨p, hp⟩ : ∃ p, call.policy = some p := by
      by_contra hnone
      have hauth := hacc.authorized
      rw [Option.eq_none_iff_forall_ne_some.mpr (not_exists.mp hnone)] at hauth
      unfold authorizeVoter at hauth
      split at hauth <;> cases hauth
    refine ⟨p, hp, quorum_of_countVotes hinv (by rw [← hpol, hp]) ?_⟩
    rw [countVotes_saved hrows]
    exact max_le_of_judge hp (hok.2 p hp) hvoted hjudge

/-- In any sequence of calls in which callers vote under their own ids, on policies that do not
let a rejection pass for an approval, every release rests on a quorum. -/
theorem quorumSound_of_proper (hs : Initial s) (calls : List (VoteCall × VoteClock))
    (hok : (system policyOf).Meets Proper s calls) :
    (system policyOf).Meets (QuorumSound policyOf) s calls := by
  refine TransitionSystem.meets_of_invariant (I := Inv policyOf) ?_ ?_ hok
  · exact fun s action s' h hok he => quorumSound_step h hok he
  · exact ⟨by simp [hs.votes, hs.cast], by simp [hs.cast], by simp [hs.cast]⟩

def unopened : Poll where
  db := review.database
  cast := []

/-- Two approvals under two ids release the review. -/
theorem quorumSound_two_approvals : let policy := policyOver "alice,bob" 2 false
    let calls := [(voteBy policy "alice" "alice" .approved "", {}),
      (voteBy policy "bob" "bob" .approved "", {})]
    (system fun _ => some policy).Meets (QuorumSound fun _ => some policy) unopened calls ∧
      ((system fun _ => some policy).runWith Proper unopened calls).any
        (fun s => s.requestState "r1" == some pending) = true :=
  ⟨quorumSound_of_proper ⟨rfl, rfl⟩ _ (by decide), by decide⟩

/-- A policy that asks for no approvals turns a rejection into a release. -/
theorem released_by_rejection :
    ¬ ∀ policyOf s calls, Initial s → (system policyOf).Meets (QuorumSound policyOf) s calls := by
  intro h
  let policy := policyOver "alice,bob" 0 false
  let call := voteBy policy "alice" "alice" .rejected "broken"
  have hrun := (h (fun _ => some policy) unopened [(call, {})] ⟨rfl, rfl⟩ _ rfl).1
  obtain ⟨p, hp, votes, -, hvotes, -, -, hcount⟩ := hrun _ rfl (by decide) (by decide)
  have hnone : ∀ v ∈ (castVote unopened.db call {}).1.votes, v.decision ≠ .approved := by decide
  have hempty : votes = [] :=
    eq_nil_iff_forall_not_mem.mpr fun v hv => hnone v.2 (hvotes v hv).1 (hvotes v hv).2.2.1
  simp [hempty] at hcount

end Poll

end Formicary.Approval

import Formicary.Verification.Approval.Quorum

/-! # What is reported about the votes

When a rejection is final, and whether `CastVote` and `GetStatus` report the same. -/

namespace Formicary.Approval

open Finset List

/-! ## A quorum out of reach -/

section Rejection

variable (p : ApprovalPolicy) (approvers rejecters : Finset String)

/-- Somebody rejects, and no further approvals of allowed users who have not voted reach the
minimum. -/
def OutOfReach : Prop :=
  rejecters.Nonempty ∧ ∀ further ⊆ p.allowedUserList.toFinset \ (approvers ∪ rejecters),
    ((approvers ∪ further).card : ℤ) < p.minApprovals

variable {p approvers rejecters} (ha : approvers ⊆ p.allowedUserList.toFinset)
  (hr : rejecters ⊆ p.allowedUserList.toFinset) (hdisjoint : Disjoint approvers rejecters)

include ha hr hdisjoint

theorem outOfReach_iff : OutOfReach p approvers rejecters ↔ rejecters.Nonempty ∧
    ((p.allowedUserList.toFinset.card - rejecters.card : ℕ) : ℤ) < p.minApprovals := by
  rw [← card_sdiff_of_subset hr]
  apply and_congr_right
  intro _
  constructor
  · intro h
    have hall : approvers ∪ p.allowedUserList.toFinset \ (approvers ∪ rejecters) =
        p.allowedUserList.toFinset \ rejecters := by
      ext uid
      have hnot : uid ∈ approvers → uid ∉ rejecters := fun h => disjoint_left.mp hdisjoint h
      have hmem := @ha uid
      simp only [mem_union, mem_sdiff]
      tauto
    rw [← hall]
    exact h _ (Finset.Subset.refl _)
  · intro h further hfurther
    have hsub : approvers ∪ further ⊆ p.allowedUserList.toFinset \ rejecters := by
      intro uid huid
      rw [mem_sdiff]
      rcases mem_union.mp huid with hmem | hmem
      · exact ⟨ha hmem, disjoint_left.mp hdisjoint hmem⟩
      · have hnew := mem_sdiff.mp (hfurther hmem)
        exact ⟨hnew.1, fun hrej => hnew.2 (mem_union_right _ hrej)⟩
    have hcard := card_le_card hsub
    omega

theorem isRejected_iff (hunan : p.requireUnanimous = false) (husers : p.allowedUserList ≠ []) :
    isRejected approvers.card rejecters.card (some p) = true ↔ rejecters.Nonempty ∧
      ((p.allowedUserList.length - rejecters.card : ℕ) : ℤ) < p.minApprovals := by
  have hvotes : approvers.card + rejecters.card ≤ p.allowedUserList.length := by
    rw [← card_union_of_disjoint hdisjoint]
    exact (card_le_card (union_subset ha hr)).trans (toFinset_card_le _)
  have hrem : approvers.card + (p.allowedUserList.length - approvers.card - rejecters.card) =
      p.allowedUserList.length - rejecters.card := by omega
  by_cases hnone : rejecters = ∅
  · simp [isRejected, hnone]
  · simp only [isRejected, card_eq_zero, hnone, hunan, length_eq_zero_iff, husers, hrem]
    simp [nonempty_iff_ne_empty, hnone]

/-- A rejection is final exactly when the quorum is out of reach, as far as the entries that the
list of users repeats do not make up for the distinct users who are left. -/
theorem isRejected_iff_outOfReach (hunanimous : p.requireUnanimous = false)
    (husers : p.allowedUserList ≠ []) :
    (isRejected approvers.card rejecters.card (some p) = true ↔ OutOfReach p approvers rejecters) ↔
    (rejecters.Nonempty →
      ((p.allowedUserList.toFinset.card - rejecters.card : ℕ) : ℤ) < p.minApprovals →
      ((p.allowedUserList.length - rejecters.card : ℕ) : ℤ) < p.minApprovals) := by
  rw [isRejected_iff ha hr hdisjoint hunanimous husers, outOfReach_iff ha hr hdisjoint]
  have hdist := toFinset_card_le p.allowedUserList
  constructor
  · exact fun h hrej hfew => (h.mpr ⟨hrej, hfew⟩).2
  intro h
  constructor
  · rintro ⟨hrej, hlt⟩
    exact ⟨hrej, by omega⟩
  · exact fun hlost => ⟨hlost.1, h hlost.1 hlost.2⟩

end Rejection

theorem isRejected_out_of_two : (isRejected 0 1 (some (policyOver "alice,bob" 2 false)) = true ↔
      OutOfReach (policyOver "alice,bob" 2 false) ∅ {"bob"}) := by
  apply (@isRejected_iff_outOfReach (policyOver "alice,bob" 2 false) ∅ {"bob"} (by decide)
    (by decide) (by decide) rfl (by decide)).mpr
  exact fun _ _ => by decide

theorem repeated_user_not_rejected : let p := policyOver "alice,alice,bob" 2 false
    isRejected 0 1 (some p) = false ∧ OutOfReach p ∅ {"bob"} :=
  ⟨by decide, (outOfReach_iff (by decide) (by decide) (by decide)).mpr (by decide)⟩

/-! ## Casting and reading -/

/-- What a call that returns a status leaves: the status that is read afterwards, without both
flags, and for a repeated vote the database as it was. -/
structure Agreement (db db' : Database) (call : VoteCall) (status : ApprovalStatus) : Prop where
  read : status = getStatus db' call.taskExecutionID call.request.id call.policy
  exclusive : ¬ (status.rejected = true ∧ status.quorumReached = true)
  repeated : hasVoted db call.taskExecutionID call.voterID = true → db' = db

/-- Every vote approves or rejects. -/
def AllDecided (db : Database) : Prop :=
  ∀ v ∈ db.votes, v.decision = .approved ∨ v.decision = .rejected

variable {db db' : Database} {call : VoteCall} {c : VoteClock} {status : ApprovalStatus}

theorem countP_getVotes (taskExecutionID : String) (p : ApprovalVote → Bool) :
    (getVotes db taskExecutionID).countP p =
      db.votes.rows.countP fun v => p v && v.taskExecutionID == taskExecutionID := by
  rw [getVotes, (perm_insertionSort _ _).countP_eq, countP_filter]

theorem countP_approved (taskExecutionID : String) :
    (getVotes db taskExecutionID).countP (fun v => v.decision == .approved) =
      countVotes db taskExecutionID .approved := by
  rw [countP_getVotes, countVotes, Table.affected]
  exact countP_congr fun v _ => by simp [and_comm]

theorem countP_rejected (h : AllDecided db) (taskExecutionID : String) :
    (getVotes db taskExecutionID).countP (fun v => v.decision != .approved) =
      countVotes db taskExecutionID .rejected := by
  rw [countP_getVotes, countVotes, Table.affected]
  apply countP_congr
  intro v hv
  rcases h v hv with hd | hd <;> simp [hd]

theorem Poll.decided_of_reachable {policyOf : String → Option ApprovalPolicy} {s : Poll}
    (hs : (Poll.system policyOf).Reachable s) : AllDecided s.db := by
  induction hs with
  | init hinit =>
    intro v hv
    rw [← Table.mem_rows, hinit.votes] at hv
    cases hv
  | step _ _ he ih =>
    intro v hv
    cases (step_spec he).2 with
    | refused hdb => exact ih v (hdb ▸ hv)
    | voted saved hacc _ hrows =>
      rw [← Table.mem_rows, hrows, List.mem_cons] at hv
      rcases hv with rfl | hv
      · exact hacc.decision
      · exact ih v hv

/-- The votes reject the task under a policy that takes any rejection, and still reach the
minimum. -/
def Clash (policy : Option ApprovalPolicy) (approvals rejections : ℕ) : Prop :=
  rejections ≠ 0 ∧ (∀ p ∈ policy, p.requireUnanimous = true ∨ p.allowedUserList = []) ∧
    minRequired policy ≤ approvals

theorem clash_iff {policy : Option ApprovalPolicy} {approvals rejections : ℕ} :
    Clash policy approvals rejections ↔
      isRejected approvals rejections policy = true ∧ minRequired policy ≤ approvals := by
  cases policy with
  | none => simp [Clash, isRejected]
  | some p =>
    by_cases hany : p.requireUnanimous = true ∨ p.allowedUserList = []
    · rcases hany with h | h <;> simp [Clash, isRejected, h]
    obtain ⟨hunan, husers⟩ := not_or.mp hany
    simp only [Clash, isRejected, minRequired, hunan, husers, length_eq_zero_iff]
    simp only [Option.mem_some_iff, forall_eq', hunan, husers, or_self, false_and, and_false,
      false_iff, if_false, Bool.false_eq_true, Bool.if_false_left, Bool.and_eq_true,
      decide_eq_true_iff]
    omega

theorem getStatus_eq (h : AllDecided db) :
    getStatus db call.taskExecutionID call.request.id call.policy =
      { call.status (countVotes db call.taskExecutionID .approved)
          (countVotes db call.taskExecutionID .rejected) (getVotes db call.taskExecutionID) with
        quorumReached := decide
          (minRequired call.policy ≤ countVotes db call.taskExecutionID .approved) } := by
  simp only [getStatus, VoteCall.status, countP_approved, countP_rejected h]

/-- The votes with a decision once the call is done: those there are, and the vote of the call
unless its user has voted. -/
def counted (db : Database) (call : VoteCall) (decision : ApprovalDecision) : ℕ :=
  if hasVoted db call.taskExecutionID call.voterID then countVotes db call.taskExecutionID decision
  else tally db call decision

theorem agreement_recorded_iff (h : AllDecided db')
    (hfresh : hasVoted db call.taskExecutionID call.voterID = false) :
    Agreement db db' call (call.status (countVotes db' call.taskExecutionID .approved)
      (countVotes db' call.taskExecutionID .rejected) (getVotes db' call.taskExecutionID)) ↔
    ¬ Clash call.policy (countVotes db' call.taskExecutionID .approved)
      (countVotes db' call.taskExecutionID .rejected) := by
  rw [clash_iff, not_and]
  constructor
  · intro hagree hrej hmin
    have hflag := congrArg ApprovalStatus.quorumReached (hagree.read.trans (getStatus_eq h))
    simp [VoteCall.status, hrej, hmin] at hflag
  · intro hclash
    refine ⟨?_, fun hboth => ?_, by simp [hfresh]⟩
    · rw [getStatus_eq h]
      simpa [VoteCall.status] using fun hmin => Bool.eq_false_iff.mpr fun hr => hclash hr hmin
    · simp only [VoteCall.status, Bool.and_eq_true, Bool.not_eq_true'] at hboth
      exact Bool.false_ne_true (hboth.2.1.symm.trans hboth.1)

theorem agreement_repeated_iff (h : AllDecided db) :
    Agreement db db call (getStatus db call.taskExecutionID call.request.id call.policy) ↔
    ¬ Clash call.policy (countVotes db call.taskExecutionID .approved)
      (countVotes db call.taskExecutionID .rejected) := by
  rw [clash_iff]
  constructor
  · intro hagree
    simpa [getStatus_eq h, VoteCall.status] using hagree.exclusive
  · intro hclash
    refine ⟨rfl, ?_, fun _ => rfl⟩
    simpa [getStatus_eq h, VoteCall.status] using hclash

/-- In every state the calls reach, a call that returns a status agrees with what is read
afterwards exactly if the votes cast before, with its own, do not clash. -/
theorem castVote_agrees_iff (policyOf : String → Option ApprovalPolicy) {s : Poll}
    (hs : (Poll.system policyOf).Reachable s)
    (hpolicy : call.policy = policyOf call.taskExecutionID)
    (he : castVote s.db call c = (db', .ok status)) :
    Agreement s.db db' call status ↔
      ¬ Clash call.policy (counted s.db call .approved) (counted s.db call .rejected) := by
  have hdec := Poll.decided_of_reachable hs
  cases hearly : earlyResult s.db call with
  | some =>
    simp only [castVote, hearly, Prod.mk.injEq] at he
    obtain ⟨rfl, rfl⟩ := he
    unfold earlyResult at hearly
    split at hearly
    · cases hearly
    split_ifs at hearly with hvoted hcomment
    · cases hearly
      simp only [counted, hvoted, if_true]
      exact agreement_repeated_iff hdec
    · cases hearly
  | none =>
    have hacc := earlyResult_eq_none hearly
    have hdec' : AllDecided db' := by
      have hstep : (Poll.system policyOf).step s (call, c) = some _ := if_pos hpolicy
      have hnext := Poll.decided_of_reachable (.step hs trivial hstep)
      rwa [he] at hnext
    cases hsave : saveVote s.db (call.vote c.now) with
    | error => simp [castVote, hearly, hsave] at he
    | ok saved =>
      simp only [castVote, hearly, hsave, Prod.mk.injEq, Except.ok.injEq] at he
      have hvotes : db'.votes = saved.votes := by
        rw [← he.1, Poll.settle_votes]
      have hcount (decision : ApprovalDecision) :
          countVotes db' call.taskExecutionID decision = counted s.db call decision := by
        rw [countVotes_saved (hvotes ▸ hacc.rows hsave), counted, hacc.fresh]
        rfl
      rw [← he.2, ← hcount, ← hcount, ← agreement_recorded_iff hdec' hacc.fresh]
      simp only [countVotes, getVotes, hvotes]

theorem castVote_agrees_first :
    let call := voteBy (policyOver "alice,bob" 2 true) "alice" "alice" .approved ""
    ∃ db' status, castVote Poll.unopened.db call {} = (db', .ok status) ∧
      Agreement Poll.unopened.db db' call status := by
  refine ⟨_, _, rfl, ?_⟩
  apply (castVote_agrees_iff (fun _ => some (policyOver "alice,bob" 2 true))
    (.init ⟨rfl, rfl⟩) rfl rfl).mpr
  exact fun hclash => absurd (clash_iff.mp hclash) (by decide)

theorem quorum_after_rejection : let policy := policyOver "alice,bob" 1 true
    let db := (castVote Poll.unopened.db (voteBy policy "alice" "alice" .approved "") {}).1
    let call := voteBy policy "bob" "bob" .rejected "broken"
    let read := getStatus (castVote db call {}).1 call.taskExecutionID call.request.id (some policy)
    (∃ status, (castVote db call {}).2 = .ok status ∧ status.quorumReached = false) ∧
      read.quorumReached = true ∧ read.rejected = true :=
  ⟨⟨_, rfl, by decide⟩, by decide, by decide⟩

end Formicary.Approval

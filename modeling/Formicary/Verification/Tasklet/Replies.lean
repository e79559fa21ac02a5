import Formicary.Verification.Tasklet.Steps

/-! # Replies to requests

The reply to a request is lost if the request is refused, by the check before the execution or by
the registry, and if it is cancelled before its reply has been sent: the reply is sent on the
context that has been cancelled. -/

namespace Formicary.Tasklet

open List

variable {t t' : Tasklet} {a : Step} {i j : ℕ} {c c' : Call} {k : String}

def Call.Lost (c : Call) (replies : ℕ) : Prop :=
  c.request.action = .execute ∧
    (4 ≤ c.phase.stage ∧ replies = 0 ∨ c.phase.stage < 4 ∧ c.contextCancelled = true)

def Lost (t : Tasklet) (j : ℕ) : Prop :=
  ∃ c, t.calls[j]? = some c ∧ c.Lost (t.repliesTo j)

def Unanswered (t : Tasklet) (j : ℕ) : Prop :=
  ∃ c ∈ t.calls[j]?, c.phase.stage < 4

def Hinders (t : Tasklet) : Step → ℕ → Prop
  | .handle i (.preExecute proceed), j => i = j ∧ proceed = false
  | .handle i .add, j => i = j ∧ ∃ c ∈ t.calls[i]?, (t.requests.lookup c.request.key).isSome
  | .handle i .cancel, j =>
    ∃ c ∈ t.calls[i]?, t.requests.lookup c.request.key = some j ∧ t.Unanswered j
  | .cancelTask jobRequestID taskType, j =>
    t.requests.lookup (taskKey jobRequestID taskType) = some j ∧ t.Unanswered j
  | .cancelJob jobRequestID order, j => t.stopsAt jobRequestID order = some j ∧ t.Unanswered j
  | _, _ => False

theorem lost_iff_of_call (hc : t.calls[j]? = some c) : t.Lost j ↔ c.Lost (t.repliesTo j) := by
  simp [Lost, hc]

theorem unanswered_iff_of_call (hc : t.calls[j]? = some c) :
    t.Unanswered j ↔ c.phase.stage < 4 := by
  simp [Unanswered, hc]

theorem lost_congr (hcalls : t'.calls[j]? = t.calls[j]?)
    (hreplies : t'.repliesTo j = t.repliesTo j) : t'.Lost j ↔ t.Lost j := by
  simp [Lost, hcalls, hreplies]

theorem lost_setPhase (hc : t.calls[i]? = some c) (phase : Phase) (j : ℕ) :
    (t.setPhase i phase).Lost j ↔
      if i = j then { c with phase := phase }.Lost (t.repliesTo i) else t.Lost j := by
  have hcalls := calls_setPhase t i j phase
  split
  · next hij =>
    subst hij
    rw [if_pos rfl, hc] at hcalls
    exact lost_iff_of_call hcalls
  · next hij =>
    rw [if_neg hij] at hcalls
    exact lost_congr hcalls rfl

theorem lost_modify {f : Call → Call} (hc : t.calls[i]? = some c)
    (hact : c.request.action = .execute) (hcanc : (f c).contextCancelled = true)
    (hreq : (f c).request.action = c.request.action) (hphase : (f c).phase = c.phase) (j : ℕ) :
    (t.modify i f).Lost j ↔ t.Lost j ∨ i = j ∧ t.Unanswered j := by
  have hcalls := calls_modify t i j f
  by_cases hij : i = j
  · subst hij
    rw [if_pos rfl, hc] at hcalls
    rw [lost_iff_of_call hcalls, lost_iff_of_call hc, unanswered_iff_of_call hc]
    simp only [Call.Lost, hreq, hphase, hcanc, hact]
    tauto
  · rw [if_neg hij] at hcalls
    rw [lost_congr hcalls rfl]
    simp [hij]

theorem Inv.lost_setPhase_of_lt (h : Inv t) (hc : t.calls[i]? = some c)
    (hstage : c.phase.stage < 4) (phase : Phase) (j : ℕ) :
    (t.setPhase i phase).Lost j ↔
      t.Lost j ∨ i = j ∧ c.request.action = .execute ∧ 4 ≤ phase.stage := by
  rw [lost_setPhase hc]
  split
  · next hij =>
    subst hij
    rw [lost_iff_of_call hc]
    simp only [Call.Lost, h.unanswered i c hc hstage]
    have hother : phase.stage < 4 ∨ 4 ≤ phase.stage := Nat.lt_or_ge _ _
    have hnot : ¬ 4 ≤ c.phase.stage := by omega
    have hexcl : ¬ (phase.stage < 4 ∧ 4 ≤ phase.stage) := by omega
    tauto
  · next hij => simp [hij]

theorem lost_send (hc : t.calls[i]? = some c) {response : Response}
    (hphase : c.phase = .responding response) (hctx : c.contextCancelled = false)
    (phase : Phase) (hlater : 4 ≤ phase.stage) (j : ℕ) :
    ((t.sent ⟨i, c.replyTopic, c.request.coRelationID, response⟩).setPhase i phase).Lost j ↔
      t.Lost j := by
  have hcount := repliesTo_sent t ⟨i, c.replyTopic, c.request.coRelationID, response⟩ j
  rw [lost_setPhase (t := t.sent _) hc]
  split
  · next hij =>
    subst hij
    rw [lost_iff_of_call hc, hcount]
    have hstage : c.phase.stage = 3 := congrArg Phase.stage hphase
    simp [-Phase.stage, Call.Lost, hctx, hstage, hlater]
  · next hij =>
    rw [if_neg hij] at hcount
    exact lost_congr rfl hcount

theorem lost_receive (action : Action)
    (jobRequestID taskType coRelationID replyTopic : String) (j : ℕ) :
    Lost { t with
      calls := t.calls ++ [newCall action jobRequestID taskType coRelationID replyTopic] } j ↔
      t.Lost j := by
  rcases Nat.lt_trichotomy j t.calls.length with hlt | rfl | hgt
  · exact lost_congr (getElem?_append_left hlt) rfl
  · simp [Lost, Call.Lost, newCall]
  refine lost_congr ?_ rfl
  rw [getElem?_eq_none hgt.le, getElem?_eq_none]
  rw [length_append]
  exact hgt

theorem Inv.lost_cancel (h : Inv t) (hk : t.requests.lookup k = some i) (j : ℕ) :
    (t.modify i Call.cancel).Lost j ↔ t.Lost j ∨ i = j ∧ t.Unanswered j := by
  obtain ⟨c, hc, -, hact, -⟩ := h.entries k i hk
  exact lost_modify hc hact rfl rfl rfl j

theorem Inv.lost_iff (h : Inv t) (ht : Fires t a t') (j : ℕ) :
    t'.Lost j ↔ t.Lost j ∨ t.Hinders a j := by
  cases ht with
  | receive =>
    rw [lost_receive]
    simp [Hinders]
  | @refuse i c hc hphase hact =>
    rw [h.lost_setPhase_of_lt hc (by simp [hphase])]
    simp [Hinders, hact]
  | @accept i c hc hphase hact =>
    rw [h.lost_setPhase_of_lt hc (by simp [hphase])]
    simp [Hinders]
  | @add i c hc hphase hfree =>
    have hset := h.lost_setPhase_of_lt hc (by simp [hphase]) .executing j
    refine Iff.trans hset ?_
    simp [Hinders, hc, hfree]
  | @duplicate i _ c hc hphase htaken =>
    rw [h.lost_setPhase_of_lt hc (by simp [hphase])]
    simp [Hinders, hc, htaken, h.executes i c hc (.inl hphase)]
  | @execute i c hc hphase result | @answer i c hc hphase hact result =>
    rw [h.lost_setPhase_of_lt hc (by simp [hphase])]
    simp [Hinders]
  | @send i c response hc hphase hctx =>
    rw [lost_send hc hphase hctx _ (h.stage_replied hc).1]
    simp [Hinders]
  | @lose i c response hc hphase hctx =>
    rw [h.lost_setPhase_of_lt hc (by simp [hphase])]
    -- the reply has been lost before, when the context was cancelled
    have hlost : c.request.action = .execute → t.Lost i := by
      intro hact
      refine (lost_iff_of_call hc).mpr ⟨hact, .inr ⟨?_, hctx⟩⟩
      simp [hphase]
    simp only [Hinders, or_false, or_iff_left_iff_imp]
    rintro ⟨rfl, hact, -⟩
    exact hlost hact
  | @remove i c hc hphase =>
    have hsame : ∀ n, Call.Lost { c with phase := .returned } n ↔ c.Lost n := by
      simp [Call.Lost, hphase]
    have hset := lost_setPhase (t := { t with requests := t.requests.erase c.request.key }) hc
      .returned j
    simp only [Hinders, or_false]
    refine hset.trans ?_
    split
    · next hij =>
      subst hij
      exact (hsame _).trans (lost_iff_of_call hc).symm
    · exact Iff.rfl
  | @cancel i c hc hphase hact hit hhit =>
    have hstage : c.phase.stage < 2 := by simp [hphase]
    rcases hhit with ⟨hnone, rfl⟩ | ⟨j', hk, rfl⟩
    · rw [h.lost_setPhase_of_lt hc (by omega)]
      simp [Hinders, hc, hnone, hact]
    rw [(h.cancel hk).lost_setPhase_of_lt (h.call_cancel hc hstage hk) (by omega), h.lost_cancel hk]
    simp [Hinders, hc, hk, hact]
  | cancelTask jobRequestID taskType hhit =>
    rcases hhit with ⟨hnone, rfl⟩ | ⟨j', hk, rfl⟩
    · simp [Hinders, hnone]
    rw [h.lost_cancel hk]
    simp [Hinders, hk]
  | passJob hstop => simp [Hinders, hstop]
  | @cancelJob jobRequestID order i c hstop hi hc =>
    have hact := (h.entry hc (h.keyed.entry hi hc).1).1
    refine Iff.trans (lost_modify hc hact rfl rfl rfl j) ?_
    simp [Hinders, hstop]

/-- No step of a run refuses a request, or cancels one before its reply. -/
def Unhindered (t : Tasklet) (a : Step) : Prop := ∀ j, ¬ t.Hinders a j

def NoneLost (t : Tasklet) : Prop := ∀ j, ¬ t.Lost j

theorem Inv.noneLost_iff (h : Inv t) (hstep : t.step a = some t') :
    t'.NoneLost ↔ t.NoneLost ∧ t.Unhindered a := by
  simp only [NoneLost, Unhindered, h.lost_iff (fires_of_step h.keyed hstep), not_or, forall_and]

theorem noneLost_iff_meets {as : List Step}
    (hrun : system.runWith (fun _ _ => True) empty as = some t) :
    t.NoneLost ↔ system.Meets Unhindered empty as := by
  have hempty : empty.NoneLost := by
    rintro j ⟨c, hc, -⟩
    simp [empty] at hc
  have hlast : system.Along NoneLost empty as ↔ t.NoneLost := by
    refine TransitionSystem.along_iff_last (I := Inv) ?_ ?_ inv_empty hrun
    · intro s a s' hs hstep hnone
      exact ((hs.noneLost_iff hstep).mp hnone).1
    · intro s a s' hs hstep
      exact hs.step hstep
  rw [← hlast]
  refine TransitionSystem.along_iff_meets (I := fun s => Inv s ∧ NoneLost s) (fun s hs => hs.2)
    ?_ ⟨inv_empty, hempty⟩ as
  intro s a s' hs hstep
  have hiff := hs.1.noneLost_iff hstep
  exact ⟨fun hnone => (hiff.mp hnone).2, fun hok => ⟨hs.1.step hstep, hiff.mpr ⟨hs.2, hok⟩⟩⟩

def Settled (t : Tasklet) : Prop := ∀ c ∈ t.calls, c.phase = .returned

instance (t : Tasklet) : Decidable t.Settled :=
  inferInstanceAs (Decidable (∀ c ∈ t.calls, c.phase = .returned))

/-- One message has been sent in reply to the call, on its topic and with its correlation id. -/
def AnsweredOnce (t : Tasklet) (i : ℕ) (c : Call) : Prop :=
  ∃ response, t.replies.filter (fun r => r.call == i) =
    [⟨i, c.replyTopic, c.request.coRelationID, response⟩]

theorem exists_advance (t : Tasklet) (i : ℕ) (hphase : c.phase ≠ .returned) :
    ∃ move t', t.advance i c move = some t' := by
  cases hc : c.phase with
  | received =>
    by_cases hexe : c.request.action = .execute
    · exact ⟨.preExecute true, _, if_pos ⟨hc, hexe⟩⟩
    by_cases hcanc : c.request.action = .cancel
    · exact ⟨.cancel, _, if_pos ⟨hc, hcanc⟩⟩
    · exact ⟨.answer (.ok .completed), _, if_pos ⟨hc, hexe, hcanc⟩⟩
  | admitted =>
    refine ⟨.add, ?_⟩
    rw [advance, if_pos hc]
    split <;> exact ⟨_, rfl⟩
  | executing => exact ⟨.execute (.ok .completed), _, if_pos hc⟩
  | responding =>
    refine ⟨.respond, ?_⟩
    rw [advance, hc]
    exact ⟨_, rfl⟩
  | returning => exact ⟨.remove, _, if_pos hc⟩
  | returned => exact absurd hc hphase

theorem Inv.stage_lt (h : Inv t) (hc : t.calls[i]? = some c) {move : Move}
    (ht : Fires t (.handle i move) t') :
    ∃ c', t'.calls[i]? = some c' ∧ c.phase.stage < c'.phase.stage := by
  -- whatever else the move does, it leads to a later phase
  have hset : ∀ {hit : Tasklet} {c' : Call} {phase : Phase}, t.calls[i]? = some c' →
      hit.calls[i]? = some c' → c'.phase.stage < phase.stage →
      ∃ c', (hit.setPhase i phase).calls[i]? = some c' ∧ c.phase.stage < c'.phase.stage := by
    intro hit c' phase hc' hhit hlater
    cases Option.some.inj (hc'.symm.trans hc)
    refine ⟨{ c with phase := phase }, ?_, hlater⟩
    rw [calls_setPhase, if_pos rfl, hhit]
    rfl
  cases ht with
  | refuse hc hphase | accept hc hphase | add hc hphase | duplicate hc hphase | remove hc hphase =>
    exact hset hc hc (by simp [hphase])
  | execute hc hphase | answer hc hphase => exact hset hc hc (by simp [hphase])
  | send hc hphase | lose hc hphase =>
    refine hset hc hc (lt_of_lt_of_le ?_ (h.stage_replied hc).1)
    simp [hphase]
  | cancel hc hphase hact hhit =>
    rcases hhit with ⟨-, rfl⟩ | ⟨j, hk, rfl⟩
    · exact hset hc hc (by simp [hphase])
    · exact hset hc (h.call_cancel hc (by simp [hphase]) hk) (by simp [hphase])

theorem Inv.answeredOnce_iff (h : Inv t) (hc : t.calls[i]? = some c) :
    t.AnsweredOnce i c ↔ t.repliesTo i ≠ 0 := by
  have hlen : (t.replies.filter fun r => r.call == i).length = t.repliesTo i :=
    countP_eq_length_filter.symm
  constructor
  · rintro ⟨response, heq⟩
    rw [← hlen, heq]
    exact Nat.one_ne_zero
  · intro hreplied
    have hone : t.repliesTo i = 1 := by
      have honce := h.atMostOnce i
      omega
    obtain ⟨r, hr⟩ := length_eq_one_iff.mp (hlen.trans hone)
    have hmem : r ∈ t.replies.filter fun r => r.call == i := by simp [hr]
    obtain ⟨hsent, hcall⟩ := mem_filter.mp hmem
    obtain ⟨c', hc', htopic, hcorr⟩ := h.addressed r hsent
    have hri : r.call = i := beq_iff_eq.mp hcall
    rw [hri] at hc'
    cases Option.some.inj (hc'.symm.trans hc)
    refine ⟨r.response, hr.trans ?_⟩
    rw [← hri, ← htopic, ← hcorr]

/-- A handler that has not returned can always go on, and every move takes it further. Once all
have returned, every request to execute a task has been answered, by exactly one message on its
topic with its correlation id, if and only if none was refused and none cancelled before its
reply. -/
theorem answeredOnce_iff_unhindered (as : List Step) (t : Tasklet)
    (hrun : system.runWith (fun _ _ => True) empty as = some t) :
    (∀ (i : ℕ) (c : Call), t.calls[i]? = some c → c.phase ≠ .returned →
      ∃ move t' c', t.step (.handle i move) = some t' ∧ t'.calls[i]? = some c' ∧
        c.phase.stage < c'.phase.stage) ∧
    (t.Settled → ((∀ (i : ℕ) (c : Call), t.calls[i]? = some c → c.request.action = .execute →
          t.AnsweredOnce i c) ↔
        system.Meets Unhindered empty as)) := by
  have h : Inv t := inv_of_reachable (TransitionSystem.ReachableWith.runWith (.init rfl) hrun)
  refine ⟨fun i c hc hphase => ?_, fun hset => ?_⟩
  · obtain ⟨move, t', hadv⟩ := exists_advance t i hphase
    have hstep : t.step (.handle i move) = some t' := by
      rw [step, hc]
      exact hadv
    obtain ⟨c', hc', hlater⟩ := h.stage_lt hc (fires_of_step h.keyed hstep)
    exact ⟨move, t', c', hstep, hc', hlater⟩
  · rw [← noneLost_iff_meets hrun]
    have hlost : ∀ (i : ℕ) (c : Call), t.calls[i]? = some c →
        (t.Lost i ↔ c.request.action = .execute ∧ t.repliesTo i = 0) := by
      intro i c hc
      have hphase := hset c (mem_of_getElem? hc)
      simp [lost_iff_of_call hc, Call.Lost, hphase]
    constructor
    · intro hall i hi
      obtain ⟨c, hc, -⟩ := id hi
      obtain ⟨hact, hzero⟩ := (hlost i c hc).mp hi
      exact (h.answeredOnce_iff hc).mp (hall i c hc hact) hzero
    · intro hnone i c hc hact
      refine (h.answeredOnce_iff hc).mpr fun hzero => hnone i ?_
      exact (hlost i c hc).mpr ⟨hact, hzero⟩

def deploy (coRelationID : String) : Step :=
  .receive .execute "1" "deploy" coRelationID "replies"

def deploying (i : ℕ) (result : Except String RequestState) : List Step :=
  [.handle i .add, .handle i (.execute result), .handle i .respond, .handle i .remove]

theorem answeredOnce_deploy : ∃ t, system.runWith (fun _ _ => True) empty
        ([deploy "a", .handle 0 (.preExecute true)] ++ deploying 0 (.error "no space")) = some t ∧
      t.Settled ∧
      system.Meets Unhindered empty
        ([deploy "a", .handle 0 (.preExecute true)] ++ deploying 0 (.error "no space")) := by
  refine ⟨_, rfl, by decide, ((answeredOnce_iff_unhindered _ _ rfl).2 (by decide)).mp ?_⟩
  intro i c hc _
  cases i with
  | zero =>
    cases hc
    exact ⟨_, rfl⟩
  | succ => cases hc

/-- The handlers have returned and there is no reply to a request to execute a task. -/
def LeavesUnanswered (as : List Step) (i : ℕ) : Prop :=
  ∃ t, system.runWith (fun _ _ => True) empty as = some t ∧ t.Settled ∧
    t.calls[i]?.map (fun c => c.request.action) = some .execute ∧ t.repliesTo i = 0

/-- A request that is refused by the check, one whose key is in the registry already, and one that
is cancelled while it runs. -/
theorem unanswered_deploy : LeavesUnanswered [deploy "a", .handle 0 (.preExecute false)] 0 ∧
    LeavesUnanswered
      ([deploy "a", deploy "b", .handle 0 (.preExecute true), .handle 1 (.preExecute true),
        .handle 0 .add, .handle 1 .add, .handle 0 (.execute (.ok .completed)),
        .handle 0 .respond, .handle 0 .remove]) 1 ∧
    LeavesUnanswered
      ([deploy "a", .handle 0 (.preExecute true), .handle 0 .add, .cancelTask "1" "deploy",
        .handle 0 (.execute (.error "cancelled")), .handle 0 .respond, .handle 0 .remove]) 0 :=
  ⟨⟨_, rfl, by decide, rfl, rfl⟩, ⟨_, rfl, by decide, rfl, rfl⟩, ⟨_, rfl, by decide, rfl, rfl⟩⟩

end Formicary.Tasklet

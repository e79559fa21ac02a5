import Formicary.Verification.Tasklet.Registry

/-! # Steps of a tasklet

Every step by the state it is taken in and the state it leads to. -/

namespace Formicary.Tasklet

open Option List

variable {t t' : Tasklet} {a : Step} {i j : ℕ} {c c' : Call} {k : String}

@[simp] def Phase.stage : Phase → ℕ
  | .received => 0
  | .admitted => 1
  | .executing => 2
  | .responding _ => 3
  | .returning => 4
  | .returned => 5

def sent (t : Tasklet) (r : Reply) : Tasklet :=
  { t with replies := t.replies ++ [r] }

def repliesTo (t : Tasklet) (i : ℕ) : ℕ :=
  t.replies.countP fun r => r.call == i

theorem repliesTo_sent (t : Tasklet) (r : Reply) (j : ℕ) :
    (t.sent r).repliesTo j = t.repliesTo j + if r.call = j then 1 else 0 := by
  rw [repliesTo, sent, countP_append, countP_singleton]
  simp [repliesTo]

theorem calls_setPhase (t : Tasklet) (i j : ℕ) (phase : Phase) : (t.setPhase i phase).calls[j]? =
      if i = j then t.calls[j]?.map fun c => { c with phase := phase } else t.calls[j]? :=
  calls_modify t i j _

theorem key_ne_empty (req : Request) : req.key ≠ "" := by
  intro h
  have hlist := congrArg String.toList h
  simp [Request.key, taskKey] at hlist

def Call.cancel (c : Call) : Call :=
  { c with contextCancelled := true, request := { c.request with cancelled := true } }

theorem cancel_cases (h : t.Keyed) (key : String) :
    (t.requests.lookup key = none ∧ (t.cancel key).toOption.getD t = t) ∨
      ∃ i, t.requests.lookup key = some i ∧
        (t.cancel key).toOption.getD t = t.modify i Call.cancel := by
  cases hk : t.requests.lookup key with
  | none =>
    refine .inl ⟨rfl, ?_⟩
    unfold cancel
    rw [hk]
    split <;> rfl
  | some i =>
    obtain ⟨c, hc, rfl, hcanc⟩ := h key i hk
    refine .inr ⟨i, rfl, ?_⟩
    unfold cancel
    rw [if_neg (key_ne_empty _), hk]
    dsimp only
    rw [hc]
    dsimp only
    rw [if_pos hcanc]
    rfl

theorem erase_of_lookup_eq_none {m : FinMap String ℕ} (h : m.lookup k = none) : m.erase k = m := by
  apply AList.ext
  exact kerase_of_notMem_keys (AList.lookup_eq_none.mp h)

theorem remove_eq (hc : t.calls[i]? = some c) :
    (t.remove i).toOption.getD t = { t with requests := t.requests.erase c.request.key } := by
  unfold remove
  rw [hc]
  dsimp only
  rw [if_neg (key_ne_empty _)]
  cases hlook : t.requests.lookup c.request.key with
  | none => simp [Except.toOption, erase_of_lookup_eq_none hlook]
  | some => simp [Except.toOption]

/-- The steps of a tasklet. -/
inductive Fires (t : Tasklet) : Step → Tasklet → Prop where
  | receive (action : Action) (jobRequestID taskType coRelationID replyTopic : String) :
      Fires t (.receive action jobRequestID taskType coRelationID replyTopic)
        { t with
          calls := t.calls ++ [newCall action jobRequestID taskType coRelationID replyTopic] }
  | refuse {i : ℕ} {c : Call} (hc : t.calls[i]? = some c) (hphase : c.phase = .received)
      (haction : c.request.action = .execute) :
      Fires t (.handle i (.preExecute false)) (t.setPhase i .returned)
  | accept {i : ℕ} {c : Call} (hc : t.calls[i]? = some c) (hphase : c.phase = .received)
      (haction : c.request.action = .execute) :
      Fires t (.handle i (.preExecute true)) (t.setPhase i .admitted)
  | add {i : ℕ} {c : Call} (hc : t.calls[i]? = some c) (hphase : c.phase = .admitted)
      (hfree : t.requests.lookup c.request.key = none) :
      Fires t (.handle i .add)
        ({ t with requests := t.requests.insert c.request.key i }.setPhase i .executing)
  | duplicate {i j : ℕ} {c : Call} (hc : t.calls[i]? = some c) (hphase : c.phase = .admitted)
      (htaken : t.requests.lookup c.request.key = some j) :
      Fires t (.handle i .add) (t.setPhase i .returned)
  | execute {i : ℕ} {c : Call} (hc : t.calls[i]? = some c) (hphase : c.phase = .executing)
      (result : Except String RequestState) :
      Fires t (.handle i (.execute result)) (t.setPhase i (.responding (responseOf result)))
  | answer {i : ℕ} {c : Call} (hc : t.calls[i]? = some c) (hphase : c.phase = .received)
      (haction : c.request.action ≠ .execute) (result : Except String RequestState) :
      Fires t (.handle i (.answer result)) (t.setPhase i (.responding (responseOf result)))
  | send {i : ℕ} {c : Call} {response : Response} (hc : t.calls[i]? = some c)
      (hphase : c.phase = .responding response) (hcontext : c.contextCancelled = false) :
      Fires t (.handle i .respond)
        ((t.sent ⟨i, c.replyTopic, c.request.coRelationID, response⟩).setPhase i
          (if c.request.action = .execute then .returning else .returned))
  | lose {i : ℕ} {c : Call} {response : Response} (hc : t.calls[i]? = some c)
      (hphase : c.phase = .responding response) (hcontext : c.contextCancelled = true) :
      Fires t (.handle i .respond)
        (t.setPhase i (if c.request.action = .execute then .returning else .returned))
  | remove {i : ℕ} {c : Call} (hc : t.calls[i]? = some c) (hphase : c.phase = .returning) :
      Fires t (.handle i .remove)
        ({ t with requests := t.requests.erase c.request.key }.setPhase i .returned)
  | cancel {i : ℕ} {c : Call} (hc : t.calls[i]? = some c) (hphase : c.phase = .received)
      (haction : c.request.action = .cancel) {hit : Tasklet}
      (hhit : (t.requests.lookup c.request.key = none ∧ hit = t) ∨
        ∃ j, t.requests.lookup c.request.key = some j ∧ hit = t.modify j Call.cancel) :
      Fires t (.handle i .cancel) (hit.setPhase i .returned)
  | cancelTask (jobRequestID taskType : String) {hit : Tasklet}
      (hhit : (t.requests.lookup (taskKey jobRequestID taskType) = none ∧ hit = t) ∨
        ∃ j, t.requests.lookup (taskKey jobRequestID taskType) = some j ∧
          hit = t.modify j Call.cancel) :
      Fires t (.cancelTask jobRequestID taskType) hit
  | passJob {jobRequestID : String} {order : List ℕ}
      (hstop : t.stopsAt jobRequestID order = none) : Fires t (.cancelJob jobRequestID order) t
  | cancelJob {jobRequestID : String} {order : List ℕ} {i : ℕ} {c : Call}
      (hstop : t.stopsAt jobRequestID order = some i) (hi : t.Registered i)
      (hc : t.calls[i]? = some c) :
      Fires t (.cancelJob jobRequestID order) (t.dropped i c.request.key)

theorem fires_of_advance (h : t.Keyed) (hc : t.calls[i]? = some c) {move : Move}
    (hadv : t.advance i c move = some t') : Fires t (.handle i move) t' := by
  unfold advance at hadv
  split at hadv <;> split at hadv <;> try cases hadv
  · next proceed hphase =>
    cases proceed with
    | false => exact .refuse hc hphase.1 hphase.2
    | true => exact .accept hc hphase.1 hphase.2
  · next hphase =>
    cases hlook : t.requests.lookup c.request.key with
    | none =>
      simp only [Tasklet.add, hc, key_ne_empty, hlook, isSome_none, Bool.false_eq_true,
        if_false, some.injEq] at hadv
      exact hadv ▸ .add hc hphase hlook
    | some =>
      simp only [Tasklet.add, hc, key_ne_empty, hlook, isSome_some, if_true, if_false,
        some.injEq] at hadv
      exact hadv ▸ .duplicate hc hphase hlook
  · next result hphase => exact .execute hc hphase result
  · next result hphase => exact .answer hc hphase.1 hphase.2.1 result
  · next response hphase =>
    unfold sendResponse
    cases hctx : c.contextCancelled with
    | false => exact .send hc hphase hctx
    | true => exact .lose hc hphase hctx
  · next hphase =>
    rw [remove_eq hc]
    exact .remove hc hphase
  · next hphase => exact .cancel hc hphase.1 hphase.2 (cancel_cases h c.request.key)

theorem fires_of_step (h : t.Keyed) (hstep : t.step a = some t') : Fires t a t' := by
  cases a with
  | receive action jobRequestID taskType coRelationID replyTopic =>
    cases hstep
    exact .receive action jobRequestID taskType coRelationID replyTopic
  | handle =>
    obtain ⟨c, hc, hadv⟩ := bind_eq_some_iff.mp hstep
    exact fires_of_advance h hc hadv
  | cancelTask jobRequestID taskType =>
    cases hstep
    exact .cancelTask jobRequestID taskType (cancel_cases h _)
  | cancelJob jobRequestID order =>
    simp only [step] at hstep
    split at hstep <;> cases hstep
    next hperm =>
    rcases t.cancelJob_eq jobRequestID order with ⟨hstop, heq⟩ | ⟨i, c, hstop, hc, heq⟩
    · rw [heq]
      exact .passJob hstop
    · rw [heq]
      exact .cancelJob hstop (hperm.mem_iff.mp (stopsAt_eq_some hstop).1) hc

/-- What every run keeps. -/
structure Inv (t : Tasklet) : Prop where
  /-- only requests under way are in the registry -/
  entries : ∀ (k : String) (i : ℕ), t.requests.lookup k = some i → ∃ c, t.calls[i]? = some c ∧
    c.request.key = k ∧ c.request.action = .execute ∧ c.dropped = false ∧ 2 ≤ c.phase.stage ∧
    c.phase.stage ≤ 4
  cancellable : ∀ (i : ℕ) (c : Call), t.calls[i]? = some c → c.request.cancel = true
  unanswered : ∀ (i : ℕ) (c : Call), t.calls[i]? = some c → c.phase.stage < 4 → t.repliesTo i = 0
  atMostOnce : ∀ i, t.repliesTo i ≤ 1
  addressed : ∀ r ∈ t.replies, ∃ c, t.calls[r.call]? = some c ∧ r.topic = c.replyTopic ∧
    r.coRelationID = c.request.coRelationID
  /-- a request can only be cancelled through the registry -/
  uncancelled : ∀ (i : ℕ) (c : Call), t.calls[i]? = some c →
    c.phase.stage < 2 ∨ c.request.action ≠ .execute →
    c.contextCancelled = false ∧ c.dropped = false
  /-- `Add` and `Remove` are called for requests to execute a task -/
  executes : ∀ (i : ℕ) (c : Call), t.calls[i]? = some c →
    c.phase = .admitted ∨ c.phase = .returning → c.request.action = .execute

theorem inv_empty : Inv empty where
  entries k i h := by simp [empty] at h
  cancellable i c h := by simp [empty] at h
  unanswered i c h := by simp [empty] at h
  atMostOnce i := by simp [empty, repliesTo]
  addressed r h := by simp [empty] at h
  uncancelled i c h := by simp [empty] at h
  executes i c h := by simp [empty] at h

theorem Inv.keyed (h : Inv t) : t.Keyed := by
  intro k i hk
  obtain ⟨c, hc, hkey, -⟩ := h.entries k i hk
  exact ⟨c, hc, hkey, h.cancellable i c hc⟩

theorem Inv.repliesTo_of_none (h : Inv t) (hi : t.calls[i]? = none) : t.repliesTo i = 0 := by
  refine countP_eq_zero.mpr fun r hr hcall => ?_
  obtain ⟨c, hc, -⟩ := h.addressed r hr
  rw [beq_iff_eq.mp hcall, hi] at hc
  cases hc

theorem exists_of_modify {f : Call → Call} (h : (t.modify i f).calls[j]? = some c') :
    ∃ c, t.calls[j]? = some c ∧ c' = if i = j then f c else c := by
  rw [calls_modify] at h
  split
  · next hij =>
    rw [if_pos hij] at h
    obtain ⟨c, hc, heq⟩ := map_eq_some_iff.mp h
    exact ⟨c, hc, heq.symm⟩
  · next hij =>
    rw [if_neg hij] at h
    exact ⟨c', h, rfl⟩

theorem call_of_received {new : Call} (hc : (t.calls ++ [new])[i]? = some c) :
    t.calls[i]? = some c ∨ t.calls[i]? = none ∧ c = new := by
  rcases Nat.lt_or_ge i t.calls.length with hlt | hge
  · rw [getElem?_append_left hlt] at hc
    exact .inl hc
  · rw [getElem?_append_right hge] at hc
    exact .inr ⟨getElem?_eq_none hge, mem_singleton.mp (mem_of_getElem? hc)⟩

theorem Inv.receive (h : Inv t) (action : Action)
    (jobRequestID taskType coRelationID replyTopic : String) :
    Inv { t with
      calls := t.calls ++ [newCall action jobRequestID taskType coRelationID replyTopic] } := by
  have hkept : ∀ (j : ℕ) (c new : Call), t.calls[j]? = some c →
      (t.calls ++ [new])[j]? = some c := by
    intro j c new hc
    rw [List.getElem?_append_left (List.getElem?_eq_some_iff.mp hc).1, hc]
  refine ⟨fun k i hk => ?_, fun i c hc => ?_, fun i c hc hstage => ?_, h.atMostOnce, fun r hr => ?_,
    fun i c hc hstage => ?_, fun i c hc hphase => ?_⟩
  · obtain ⟨c, hc, hrest⟩ := h.entries k i hk
    exact ⟨c, hkept i c _ hc, hrest⟩
  · rcases call_of_received hc with hold | ⟨-, rfl⟩
    · exact h.cancellable i c hold
    · rfl
  · rcases call_of_received hc with hold | ⟨hnone, -⟩
    · exact h.unanswered i c hold hstage
    · exact h.repliesTo_of_none hnone
  · obtain ⟨c, hc, hrest⟩ := h.addressed r hr
    exact ⟨c, hkept _ c _ hc, hrest⟩
  · rcases call_of_received hc with hold | ⟨-, rfl⟩
    · exact h.uncancelled i c hold hstage
    · exact ⟨rfl, rfl⟩
  · rcases call_of_received hc with hold | ⟨-, rfl⟩
    · exact h.executes i c hold hphase
    · rcases hphase with hphase | hphase <;> cases hphase

section Call

variable (h : Inv t) (hc : t.calls[i]? = some c)
include h hc

theorem Inv.modify {f : Call → Call}
    (hreq : { (f c).request with cancelled := c.request.cancelled } = c.request)
    (htopic : (f c).replyTopic = c.replyTopic)
    (hentry : t.requests.lookup c.request.key = some i →
      (f c).dropped = false ∧ 2 ≤ (f c).phase.stage ∧ (f c).phase.stage ≤ 4)
    (hopen : (f c).phase.stage < 4 → c.phase.stage < 4)
    (hctx : (f c).phase.stage < 2 ∨ c.request.action ≠ .execute →
      (f c).contextCancelled = false ∧ (f c).dropped = false)
    (hexec : (f c).phase = .admitted ∨ (f c).phase = .returning → c.request.action = .execute) :
    Inv (t.modify i f) := by
  obtain ⟨hkey, hact, hcancel, hcorr⟩ : (f c).request.key = c.request.key ∧
      (f c).request.action = c.request.action ∧ (f c).request.cancel = c.request.cancel ∧
      (f c).request.coRelationID = c.request.coRelationID := by
    rw [← hreq]
    exact ⟨rfl, rfl, rfl, rfl⟩
  have hkept : ∀ {j : ℕ} {c₁ : Call}, t.calls[j]? = some c₁ →
      (t.modify i f).calls[j]? = some (if i = j then f c₁ else c₁) := by
    intro j c₁ hc₁
    rw [calls_modify, hc₁]
    split <;> rfl
  -- every other call is the one it was
  have hcases : ∀ {j : ℕ} {c' : Call}, (t.modify i f).calls[j]? = some c' →
      j = i ∧ c' = f c ∨ t.calls[j]? = some c' := by
    intro j c' hc'
    obtain ⟨c₁, hc₁, rfl⟩ := exists_of_modify hc'
    split
    · next hij =>
      subst hij
      cases hc.symm.trans hc₁
      exact .inl ⟨rfl, rfl⟩
    · exact .inr hc₁
  refine ⟨fun k j hk => ?_, fun j c' hc' => ?_, fun j c' hc' hstage => ?_, h.atMostOnce,
    fun r hr => ?_, fun j c' hc' hstage => ?_, fun j c' hc' hphase => ?_⟩
  · obtain ⟨c₁, hc₁, hkey₁, hrest⟩ := h.entries k j hk
    refine ⟨_, hkept hc₁, ?_⟩
    split
    · next hij =>
      subst hij
      cases hc.symm.trans hc₁
      exact ⟨hkey.trans hkey₁, hact.trans hrest.1, hentry (hkey₁ ▸ hk)⟩
    · exact ⟨hkey₁, hrest⟩
  · rcases hcases hc' with ⟨rfl, rfl⟩ | hold
    · exact hcancel.trans (h.cancellable j c hc)
    · exact h.cancellable j c' hold
  · rcases hcases hc' with ⟨rfl, rfl⟩ | hold
    · exact h.unanswered j c hc (hopen hstage)
    · exact h.unanswered j c' hold hstage
  · obtain ⟨c₁, hc₁, htopic₁, hcorr₁⟩ := h.addressed r hr
    refine ⟨_, hkept hc₁, ?_⟩
    split
    · next hij =>
      subst hij
      cases hc.symm.trans hc₁
      exact ⟨htopic₁.trans htopic.symm, hcorr₁.trans hcorr.symm⟩
    · exact ⟨htopic₁, hcorr₁⟩
  · rcases hcases hc' with ⟨rfl, rfl⟩ | hold
    · exact hctx (hact ▸ hstage)
    · exact h.uncancelled j c' hold hstage
  · rcases hcases hc' with ⟨rfl, rfl⟩ | hold
    · exact hact.trans (hexec hphase)
    · exact h.executes j c' hold hphase

theorem Inv.entry (hk : t.requests.lookup k = some i) : c.request.action = .execute ∧
    c.dropped = false ∧ 2 ≤ c.phase.stage ∧ c.phase.stage ≤ 4 := by
  obtain ⟨c', hc', -, hrest⟩ := h.entries k i hk
  cases hc.symm.trans hc'
  exact hrest

theorem Inv.setPhase {phase : Phase}
    (hentry : t.requests.lookup c.request.key = some i → 2 ≤ phase.stage ∧ phase.stage ≤ 4)
    (hlater : c.phase.stage ≤ phase.stage)
    (hexec : phase = .admitted ∨ phase = .returning → c.request.action = .execute) :
    Inv (t.setPhase i phase) := by
  refine Inv.modify h hc rfl rfl (fun hk => ⟨(h.entry hc hk).2.1, hentry hk⟩)
    (lt_of_le_of_lt hlater) (fun hstage => ?_) hexec
  exact h.uncancelled i c hc (hstage.imp_left (lt_of_le_of_lt hlater))

omit hc in
theorem Inv.cancel (hk : t.requests.lookup k = some i) : Inv (t.modify i Call.cancel) := by
  obtain ⟨c, hc, -, hact, hdrop, hlow, hhigh⟩ := h.entries k i hk
  refine Inv.modify h hc rfl rfl (fun _ => ⟨hdrop, hlow, hhigh⟩) id (fun hstage => ?_)
    (h.executes i c hc)
  rcases hstage with hstage | hstage
  · exact absurd hlow (Nat.not_le.mpr hstage)
  · exact absurd hact hstage

omit hc in
theorem Inv.erase (key : String) : Inv { t with requests := t.requests.erase key } := by
  refine { h with entries := fun k i hk => ?_ }
  rw [FinMap.lookup_erase_eq] at hk
  split at hk
  · cases hk
  · exact h.entries k i hk

theorem Inv.dropped (hi : t.Registered i) : Inv (t.dropped i c.request.key) := by
  obtain ⟨hact, -, hlow, -⟩ := h.entry hc (h.keyed.entry hi hc).1
  refine Inv.modify (h.erase c.request.key) hc rfl rfl (fun hk => ?_) id (fun hstage => ?_)
    (h.executes i c hc)
  · rw [FinMap.lookup_erase_eq, if_pos rfl] at hk
    cases hk
  · rcases hstage with hstage | hstage
    · exact absurd hlow (Nat.not_le.mpr hstage)
    · exact absurd hact hstage

theorem Inv.add (hphase : c.phase = .admitted) :
    Inv (({ t with requests := t.requests.insert c.request.key i }).setPhase i .executing) := by
  have hstage : c.phase.stage = 1 := congrArg Phase.stage hphase
  have hset : Inv (t.setPhase i .executing) := by
    refine h.setPhase hc (fun _ => by decide) ?_ (by simp)
    rw [hstage]
    decide
  refine { hset with entries := fun k j hk => ?_ }
  change (t.requests.insert c.request.key i).lookup k = some j at hk
  rw [FinMap.lookup_insert_eq] at hk
  split at hk
  · next hkey =>
    cases hk
    refine ⟨{ c with phase := .executing }, ?_, hkey.symm, h.executes i c hc (.inl hphase),
      (h.uncancelled i c hc (.inl ?_)).2, le_refl 2, (by decide : 2 ≤ 4)⟩
    · refine (calls_setPhase t i i _).trans ?_
      rw [if_pos rfl, hc]
      rfl
    · omega
  · exact hset.entries k j hk

theorem Inv.send {response : Response}
    (hphase : c.phase = .responding response) {phase : Phase} (hlater : 4 ≤ phase.stage)
    (hentry : t.requests.lookup c.request.key = some i → phase.stage ≤ 4)
    (hexec : phase = .admitted ∨ phase = .returning → c.request.action = .execute) :
    Inv ((t.sent ⟨i, c.replyTopic, c.request.coRelationID, response⟩).setPhase i phase) := by
  have hstage : c.phase.stage = 3 := congrArg Phase.stage hphase
  have hset : Inv (t.setPhase i phase) := by
    exact h.setPhase hc (fun hk => ⟨by omega, hentry hk⟩) (by omega) hexec
  have hcount : ∀ j, ((t.sent ⟨i, c.replyTopic, c.request.coRelationID, response⟩).setPhase i
      phase).repliesTo j = t.repliesTo j + if i = j then 1 else 0 := fun j =>
    repliesTo_sent t _ j
  have hself : (t.setPhase i phase).calls[i]? = some { c with phase := phase } := by
    rw [calls_setPhase, if_pos rfl, hc]
    rfl
  refine { hset with
    unanswered := fun j c' hc' hlt => ?_
    atMostOnce := fun j => ?_
    addressed := fun r hr => ?_ }
  · have hold := hset.unanswered j c' hc' hlt
    change t.repliesTo j = 0 at hold
    rw [hcount, hold, if_neg]
    rintro rfl
    have heq := some.inj (hself.symm.trans hc')
    rw [← heq] at hlt
    dsimp only at hlt
    omega
  · rw [hcount]
    have honce := h.atMostOnce j
    by_cases hij : i = j
    · have hnone := h.unanswered i c hc (by omega)
      rw [← hij, hnone]
      simp
    · rw [if_neg hij]
      omega
  · rcases mem_append.mp hr with hold | hnew
    · exact hset.addressed r hold
    · rw [mem_singleton.mp hnew]
      exact ⟨_, hself, rfl, rfl⟩

theorem Inv.not_entry (hstage : c.phase.stage < 2) : t.requests.lookup k ≠ some i := by
  intro hk
  have hlow := (h.entry hc hk).2.2.1
  omega

theorem Inv.call_cancel (hstage : c.phase.stage < 2)
    (hk : t.requests.lookup k = some j) : (t.modify j Call.cancel).calls[i]? = some c := by
  rw [calls_modify, if_neg, hc]
  rintro rfl
  exact h.not_entry hc hstage hk

theorem Inv.leave (hstage : c.phase.stage < 2) : Inv (t.setPhase i .returned) := by
  refine h.setPhase hc (fun hk => absurd hk (h.not_entry hc hstage)) ?_ (by simp)
  change c.phase.stage ≤ 5
  omega

theorem Inv.stage_replied :
    let phase : Phase := if c.request.action = .execute then .returning else .returned
    4 ≤ phase.stage ∧ (t.requests.lookup c.request.key = some i → phase.stage ≤ 4) ∧
      (phase = .admitted ∨ phase = .returning → c.request.action = .execute) := by
  split
  · next hact => exact ⟨le_refl 4, fun _ => le_refl 4, fun _ => hact⟩
  next hact =>
  refine ⟨(by decide : 4 ≤ 5), fun hk => ?_, (by simp)⟩
  exact absurd (h.entry hc hk).1 hact

end Call

theorem Inv.fires (h : Inv t) (ht : Fires t a t') : Inv t' := by
  cases ht with
  | receive => exact h.receive ..
  | @refuse i c hc hphase hact | @duplicate i j c hc hphase htaken =>
    exact h.leave hc (by simp [hphase])
  | @accept i c hc hphase hact =>
    have hstage : c.phase.stage < 2 := by simp [hphase]
    exact h.setPhase hc (fun hk => absurd hk (h.not_entry hc hstage))
      (by simp [hphase]) fun _ => hact
  | @add i c hc hphase hfree => exact h.add hc hphase
  | @execute i c hc hphase result =>
    exact h.setPhase hc (fun _ => ⟨by simp, by simp⟩) (by simp [hphase]) (by simp)
  | @answer i c hc hphase hact result =>
    have hstage : c.phase.stage < 2 := by simp [hphase]
    exact h.setPhase hc (fun hk => absurd hk (h.not_entry hc hstage)) (by simp [hphase]) (by simp)
  | @send i c response hc hphase hctx =>
    obtain ⟨hlow, hhigh, hexec⟩ := h.stage_replied hc
    exact h.send hc hphase hlow hhigh hexec
  | @lose i c response hc hphase hctx =>
    obtain ⟨hlow, hhigh, hexec⟩ := h.stage_replied hc
    refine h.setPhase hc (fun hk => ⟨le_trans (by decide) hlow, hhigh hk⟩) ?_ hexec
    rw [hphase]
    exact le_trans (by simp) hlow
  | @remove i c hc hphase =>
    refine (h.erase c.request.key).setPhase hc (fun hk => ?_) ?_ (by simp)
    · rw [FinMap.lookup_erase_eq, if_pos rfl] at hk
      cases hk
    · rw [hphase]
      decide
  | @cancel i c hc hphase hact hit hhit =>
    have hstage : c.phase.stage < 2 := by simp [hphase]
    rcases hhit with ⟨-, rfl⟩ | ⟨j, hk, rfl⟩
    · exact h.leave hc hstage
    · exact (h.cancel hk).leave (h.call_cancel hc hstage hk) hstage
  | cancelTask jobRequestID taskType hhit =>
    rcases hhit with ⟨-, rfl⟩ | ⟨j, hk, rfl⟩
    · exact h
    · exact h.cancel hk
  | passJob => exact h
  | cancelJob hstop hi hc => exact h.dropped hc hi

theorem Inv.step (h : Inv t) (hstep : t.step a = some t') : Inv t' :=
  h.fires (fires_of_step h.keyed hstep)

theorem inv_of_reachable {ok : Tasklet → Step → Prop} (h : system.ReachableWith ok t) : Inv t :=
  h.invariant (fun _ hs => hs ▸ inv_empty) fun _ _ _ hs _ => hs.step

end Formicary.Tasklet

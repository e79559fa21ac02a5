import Formicary.Model.Async

/-! # The ends of watchdogs and of polling -/

namespace Formicary.Async.WatchdogTask

variable {watch : ℕ → Option String} {t t' : WatchdogTask} {n k : ℕ}

/-- What is left of the loop if it ends with the invocation `n`. -/
def left (n : ℕ) (t : WatchdogTask) : ℕ :=
  match t.location with
  | .returned => 0
  | .select => 2 * (n - t.invoked) + 2
  | .invoke => 2 * (n - t.invoked) + 1

/-- The loop does not get beyond the invocation `n`. -/
structure Bounded (n : ℕ) (t : WatchdogTask) : Prop where
  invoked : t.invoked ≤ n + 1
  going : t.location ≠ .returned → t.invoked ≤ n

theorem Bounded.step (hn : watch n ≠ none) {a : Action} (h : Bounded n t)
    (hs : (system watch).step t a = some t') :
    Bounded n t' ∧ t'.left n + (if a.own then 1 else 0) ≤ t.left n := by
  obtain ⟨hle, hgo⟩ := h
  cases a <;> simp only [system, WatchdogTask.step, invokeErrorHandler] at hs
  case cancel =>
    cases hs
    exact ⟨⟨hle, hgo⟩, Nat.le_refl _⟩
  all_goals split at hs <;> cases hs
  case mainReturns => exact ⟨⟨hle, hgo⟩, Nat.le_refl _⟩
  case invoke hl =>
    have hinv := hgo (by simp [hl])
    split
    · refine ⟨⟨?_, by simp⟩, ?_⟩
      · simpa using hinv
      · simp [left, hl, Action.own]
    · next hnone =>
      have hne : t.invoked ≠ n := fun heq => hn (heq ▸ hnone)
      refine ⟨⟨?_, fun _ => ?_⟩, ?_⟩ <;> simp [left, hl, Action.own] <;> omega
  case done hl =>
    exact ⟨⟨hle, fun _ => hgo (by simp [hl])⟩, by simp [left, hl, Action.own]⟩
  case tick hl =>
    exact ⟨⟨hle, fun _ => hgo (by simp [hl])⟩, by simp [left, hl, Action.own]⟩

theorem Bounded.halts (hn : watch n ≠ none) (h : Bounded n t) :
    (system watch).Halts Action.own (fun t => t.location = .returned) t := by
  refine TransitionSystem.halts_of_measure (left n) (fun t a t' h hs => h.step hn hs) ?_ h
  intro t h
  cases hl : t.location with
  | returned => exact .inl rfl
  | invoke => exact .inr ⟨.invoke, rfl, by simp [system, WatchdogTask.step, hl]⟩
  | select => exact .inr ⟨.tick, rfl, by simp [system, WatchdogTask.step, hl]⟩

/-- Without an error the loop goes on. -/
theorem reachable_invoked (h : ∀ n < k, watch n = none) :
    (system watch).Reachable { invoked := k } := by
  induction k with
  | zero => exact .init rfl
  | succ k ih =>
    have hselect : (system watch).Reachable { invoked := k + 1, location := .select } := by
      refine (ih fun n hn => h n (by omega)).step (a := .invoke) trivial ?_
      simp [system, WatchdogTask.step, invokeErrorHandler, h k]
    exact hselect.step (a := .tick) trivial rfl

theorem exists_invoked (h : ∀ n ≤ k, watch n = none) :
    ∃ t, (system watch).Reachable t ∧ t.stoppedAt = some k ∧ t.invoked = k + 2 := by
  have hgoing := reachable_invoked fun n (hn : n < k) => h n (Nat.le_of_lt hn)
  have hselect : (system watch).Reachable
      { invoked := k + 1, location := .select, cancelled := true, stoppedAt := some k } := by
    refine (hgoing.step (a := .cancel) trivial rfl).step (a := .invoke) trivial ?_
    simp [system, WatchdogTask.step, invokeErrorHandler, stop, h k]
  refine ⟨_, (hselect.step (a := .done) trivial rfl).step (a := .invoke) trivial rfl, ?_⟩
  unfold invokeErrorHandler
  split <;> exact ⟨rfl, rfl⟩

/-- Let the watchdog handler have been invoked `k` times when the main handler returned or the
context ended. It is invoked at most once more and its loop ends exactly if one of its first `k + 1`
invocations returns an error. -/
theorem watchdog_stops_iff (watch : ℕ → Option String) (k : ℕ) :
    (∀ t, (system watch).Reachable t → t.stoppedAt = some k → t.invoked ≤ k + 1 ∧
        (system watch).Halts Action.own (fun t => t.location = .returned) t) ↔
      ∃ n ≤ k, watch n ≠ none := by
  constructor
  · intro h
    by_contra hnone
    push Not at hnone
    obtain ⟨t, ht, hstop, hinv⟩ := exists_invoked hnone
    have hle := (h t ht hstop).1
    omega
  · rintro ⟨n, hle, hn⟩ t ht -
    have hb : Bounded n t := by
      refine ht.invariant ?_ fun t a t' h _ hs => (h.step hn hs).1
      rintro _ rfl
      exact ⟨by simp, by simp⟩
    have hinv := hb.invoked
    exact ⟨by omega, hb.halts hn⟩

/-- The context ends before the first invocation, and the handler, which finds nothing wrong, is
invoked three times. -/
theorem watchdog_outlives_context : ∃ t, (system fun _ => none).Reachable t ∧
      t.stoppedAt = some 0 ∧ t.cancelled = true ∧ t.invoked = 3 :=
  TransitionSystem.exists_reachableWith _ _ [.cancel, .invoke, .done, .invoke, .done, .invoke] rfl
    (by decide)

end Formicary.Async.WatchdogTask

namespace Formicary.Async.PollingTask

variable {α : Type} {handler : ℕ → Completion α} {ctxErr : String} {t t' : PollingTask α} {n : ℕ}

/-- The first answer that is complete or an error is complete. -/
def Proper (handler : ℕ → Completion α) : Prop :=
  ∀ n, (∀ i < n, ¬ (handler i).settles) → (handler n).settles → (handler n).completed = true

/-- The result is still to come, or it is there and the loop has ended. -/
inductive Sound (handler : ℕ → Completion α) (t : PollingTask α) : Prop where
  | going (hrunning : t.running = true) (hsent : t.resultQ = []) (hgoing : t.location ≠ .returned)
      (hunsettled : ∀ n < t.invoked, ¬ (handler n).settles)
  | ended (hended : t.location = .returned) (hsent : ∃ c, t.resultQ = [(c, t.invoked)])

/-- What is left of the loop once the context has ended. -/
def left (t : PollingTask α) : ℕ :=
  match t.location with
  | .returned => 0
  | .select => 2
  | .invoke => 1

def Ending (t : PollingTask α) : Prop :=
  t.cancelled = true ∨ t.location = .returned

theorem Sound.step (hp : Proper handler) {a : Action} (h : Sound handler t)
    (hs : (system handler ctxErr).step t a = some t') : Sound handler t' ∧
      (t.Ending → t'.Ending ∧ t'.left + (if a.own then 1 else 0) ≤ t.left) := by
  cases h with
  | ended hl hsent =>
    cases a <;> simp only [system, PollingTask.step, hl] at hs <;> cases hs
    exact ⟨.ended rfl hsent, fun _ => ⟨.inl rfl, by simp [left, hl, Action.own]⟩⟩
  | going hrun hsent hl hun =>
    cases a <;> simp only [system, PollingTask.step] at hs
    case mainReturns => cases hs
    case cancel =>
      cases hs
      exact ⟨.going hrun hsent hl hun, fun _ => ⟨.inl rfl, Nat.le_refl _⟩⟩
    all_goals split at hs <;> cases hs
    · next hloc =>
      by_cases hcan : t.cancelled = true
      · refine ⟨.ended ?_ ?_, fun _ => ⟨.inr ?_, ?_⟩⟩ <;>
          simp [invokeHandlerAndCheckCompletion, hcan, hrun, hsent, left, hloc, Action.own]
      refine ⟨?_, fun hend => absurd hend (by simp [Ending, hcan, hloc])⟩
      by_cases hset : (handler t.invoked).settles
      · have hcomp := hp t.invoked hun hset
        refine .ended ?_ ⟨handler t.invoked, ?_⟩ <;>
          simp [invokeHandlerAndCheckCompletion, hcan, hrun, hsent, hcomp]
      have hun' : ∀ n < t.invoked + 1, ¬ (handler n).settles := by
        intro n hn
        rcases Nat.lt_succ_iff_lt_or_eq.mp hn with hn | rfl
        · exact hun n hn
        · exact hset
      simp only [Completion.settles] at hset
      simp [invokeHandlerAndCheckCompletion, hcan, hrun, hset]
      exact .going rfl hsent (by simp) hun'
    · next hloc =>
      refine ⟨.ended rfl ?_, fun _ => ⟨.inr rfl, by simp [left, hloc, Action.own]⟩⟩
      simp [invokeHandlerAndCheckCompletion, hloc, hrun, hsent]
    · next hloc =>
      refine ⟨.going hrun hsent (by simp) hun, fun hend => ⟨?_, by simp [left, hloc, Action.own]⟩⟩
      simpa [Ending, hloc] using hend

theorem Sound.halts (hp : Proper handler) (h : Sound handler t)
    (hend : t.cancelled = true ∨ t.resultQ ≠ []) :
    (system handler ctxErr).Halts Action.own (fun t => t.location = .returned) t := by
  refine TransitionSystem.halts_of_measure left (I := fun t => Sound handler t ∧ t.Ending) ?_ ?_
    ⟨h, ?_⟩
  · intro t a t' h hs
    obtain ⟨h', hlt⟩ := h.1.step hp hs
    exact ⟨⟨h', (hlt h.2).1⟩, (hlt h.2).2⟩
  · intro t _
    cases hl : t.location with
    | returned => exact .inl rfl
    | select => exact .inr ⟨.tick, rfl, by simp [system, PollingTask.step, hl]⟩
    | invoke => exact .inr ⟨.invoke, rfl, by simp [system, PollingTask.step, hl]⟩
  · cases h with
    | going _ hsent => exact .inl (hend.resolve_right fun hne => hne hsent)
    | ended hl => exact .inr hl

theorem reachable_unsettled (h : ∀ i < n, ¬ (handler i).settles) :
    (system handler ctxErr).Reachable { invoked := n } := by
  induction n with
  | zero => exact .init rfl
  | succ n ih =>
    have hselect : (system handler ctxErr).Reachable { invoked := n + 1, location := .select } := by
      have hset := h n (by omega)
      simp only [Completion.settles] at hset
      refine (ih fun i hi => h i (by omega)).step (a := .invoke) trivial ?_
      simp [system, PollingTask.step, invokeHandlerAndCheckCompletion, hset]
    exact hselect.step (a := .tick) trivial rfl

theorem exists_late (hun : ∀ i < n, ¬ (handler i).settles) (hset : (handler n).settles)
    (hcomp : (handler n).completed = false) : ∃ t, (system handler ctxErr).Reachable t ∧
      t.resultQ = [(handler n, n + 1)] ∧ t.invoked = n + 2 := by
  have herr : (handler n).err.isSome = true := hset.resolve_left (by simp [hcomp])
  have hselect : (system handler ctxErr).Reachable 
      { invoked := n + 1, location := .select, running := false,
        resultQ := [(handler n, n + 1)] } := by
    refine (reachable_unsettled hun).step (a := .invoke) trivial ?_
    simp [system, PollingTask.step, invokeHandlerAndCheckCompletion, hcomp, herr]
  exact ⟨_, (hselect.step (a := .tick) trivial rfl).step (a := .invoke) trivial rfl, rfl, rfl⟩

/-- At most one result is sent, the handler is not invoked after it, the loop does not return
without one, and it ends once the result is there or the context has ended: so it is exactly if no
error comes without completion before the first completion. -/
theorem polling_stops_iff (handler : ℕ → Completion α) (ctxErr : String) :
    (∀ t, (system handler ctxErr).Reachable t →
      t.resultQ.length ≤ 1 ∧ (∀ r ∈ t.resultQ, r.2 = t.invoked) ∧
        (t.location = .returned → t.resultQ ≠ []) ∧
        (t.cancelled = true ∨ t.resultQ ≠ [] →
          (system handler ctxErr).Halts Action.own (fun t => t.location = .returned) t)) ↔
      Proper handler := by
  constructor
  · intro h n hun hset
    by_contra hcomp
    obtain ⟨t, ht, hsent, hinv⟩ := exists_late hun hset (Bool.eq_false_iff.mpr hcomp)
    have hlate := (h t ht).2.1 (handler n, n + 1) (by simp [hsent])
    simp [hinv] at hlate
  · intro hp t ht
    have h : Sound handler t := by
      refine ht.invariant ?_ fun t a t' h _ hs => (h.step hp hs).1
      rintro _ rfl
      exact .going rfl rfl (by simp) (by simp)
    refine ⟨?_, ?_, ?_, h.halts hp⟩
    all_goals cases h with
    | going _ hsent hl => simp [hsent, hl]
    | ended hl hsent =>
      obtain ⟨c, hc⟩ := hsent
      simp [hc]

/-- The first invocation fails. The error is the result, and the handler is invoked again. -/
theorem polled_after_error :
    ∃ t, (system (fun _ => (⟨false, none, some "unreachable"⟩ : Completion Unit)) "").Reachable t ∧
      t.resultQ.map Prod.snd = [1] ∧ t.invoked = 2 :=
  TransitionSystem.exists_reachableWith _ _ [.invoke, .tick, .invoke] rfl (by decide)

end Formicary.Async.PollingTask

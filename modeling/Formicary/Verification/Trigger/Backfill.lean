import Formicary.Verification.Trigger.Objects

/-! # Objects that are older than the trigger

The first poll stores a time, which no listing reads, and no key. -/

namespace Formicary.S3Poller

open TriggerStates Table TransitionSystem

variable {w : Watched} {env : Surroundings} {bucket : Bucket} {h h' : History}

/-- The trigger is about the object, and its templates let it through. -/
def Accepts (w : Watched) (object : S3Object) : Prop :=
  matchesObject w object = true ∧ w.templates object = .ok true

theorem evaluated_of_isSubmitted {outcome : Outcome} (hsub : outcome.isSubmitted = true) :
    outcome.evaluated = true := by
  cases outcome <;> first | rfl | cases hsub

variable {states : TriggerStates}

theorem PollSpec.accepts {polled : Polled} {x : S3Object × Outcome}
    (hspec : PollSpec w env bucket states polled) (hx : x ∈ polled.outcomes)
    (hsub : x.2.isSubmitted = true) : Accepts w x.1 := by
  have hstart := (mem_listing.mp (hspec.listed hx)).2.1
  have hsuf := (hspec.evaluated x hx).symm.trans (evaluated_of_isSubmitted hsub)
  refine ⟨?_, hspec.accepted x hx hsub⟩
  rw [matchesObject, hstart, hsuf, Bool.and_self]

/-- Whatever was submitted is accepted by the trigger. -/
structure OnlyAccepted (w : Watched) (h : History) : Prop where
  sound : Sound h.states
  accepted : ∀ x ∈ h.polls.flatten, x.2.isSubmitted = true → Accepts w x.1

theorem onlyAccepted_step {action : Action} (hinv : OnlyAccepted w h)
    (hstep : (system w).step h action = some h') : OnlyAccepted w h' := by
  refine ⟨sound_step hinv.sound hstep, fun x hx hsub => ?_⟩
  cases hpoll : action.isPoll with
  | false =>
    rw [(keeps_step hinv.sound hpoll hstep).2] at hx
    exact hinv.accepted x hx hsub
  | true => cases action with
    | poll =>
      obtain ⟨hspec, -, hpolls⟩ := pollSpec_step hinv.sound hstep
      rw [hpolls, List.flatten_cons, List.mem_append] at hx
      rcases hx with hx | hx
      · exact hspec.accepts hx hsub
      · exact hinv.accepted x hx hsub
    | incrementWindowCount | recordFired => cases hpoll

variable {s : TriggerState}

theorem evaluate_expired {d : String}
    {trigger : TriggerDefinition} {now : Time} (hsound : Sound states) (hd : d ≠ "")
    (hname : trigger.name ≠ "") (hsel : states.select d trigger.name = some s)
    (hexp : ∀ limit ∈ trigger.rateLimit, s.windowStart < now - limit.window)
    (onConflict : OnConflict) (freshID : String) :
    (Evaluator.evaluate states d trigger (.ok true) onConflict now freshID fun _ => none).2 =
      .ok true := by
  simp only [Evaluator.evaluate]
  cases hlimit : trigger.rateLimit with
  | none => rfl
  | some limit =>
    dsimp only
    split
    · next hpos =>
      obtain ⟨hmem, hsfor⟩ := hsound.select_eq_some_iff.mp hsel
      have hinact : ∀ b ∈ states, (isFor d trigger.name b &&
          decide (now - limit.window ≤ b.windowStart)) = false := by
        intro b hb
        cases hbfor : isFor d trigger.name b with
        | false => rfl
        | true =>
          rw [hsound.eq_of_isFor hmem hb hsfor hbfor, Bool.true_and, decide_eq_false_iff_not]
          exact not_le.mpr (hexp limit hlimit)
      have hnone : (states.increment d trigger.name (now - limit.window)).2 = 0 :=
        List.countP_eq_zero.mpr fun b hb => Bool.eq_false_iff.mp (hinact b hb)
      have hsame : (states.increment d trigger.name (now - limit.window)).1 = states := by
        apply update_eq_self
        exacts [fun _ => rfl, hinact]
      have hnames : ¬ (d = "" ∨ trigger.name = "") := not_or.mpr ⟨hd, hname⟩
      have hopen := (hsound.upsert_row hsel { s with windowStart := now, windowCount := 1 } rfl
        hsfor onConflict freshID).1
      simp only [Evaluator.checkAndIncrementRateLimit, incrementWindowCount, if_neg hnames, hnone,
        hsame, if_true, openWindow, hsel, Option.getD_some, hopen, Except.map]
      exact congrArg Except.ok (decide_eq_true (Int.add_one_le_of_lt hpos.1))
    · rfl

def alone (object : S3Object) (hne : object.key ≠ "") : Bucket where
  objects := [object]
  sorted := by simp
  nonempty := by simpa using hne

def undisturbed (w : Watched) (freshID : String) : Surroundings where
  freshID := freshID
  now := (w.trigger.rateLimit.elim 0 TriggerRateLimit.window) + 1

theorem elapsed_pos (window : ℤ) : 0 < window + 1 - window := by
  omega

theorem submitted_alone {object : S3Object} (freshID : String) (hsound : Sound states)
    (hsel : states.select w.jobDefinitionID w.trigger.name = some s) (hstart : s.windowStart = 0)
    (hkey : s.lastSeenKey = "") (hne : object.key ≠ "") (hacc : Accepts w object) :
    (object, Outcome.submitted) ∈
      (poll w (undisturbed w freshID) (alone object hne) states).outcomes := by
  obtain ⟨hmatch, htemp⟩ := hacc
  obtain ⟨hlist, hsuf⟩ := Bool.and_eq_true_iff.mp hmatch
  have hexp : ∀ limit ∈ w.trigger.rateLimit,
      s.windowStart < (undisturbed w freshID).now - limit.window := by
    intro limit hlimit
    simp only [undisturbed, Option.mem_def.mp hlimit, Option.elim_some, hstart]
    exact elapsed_pos limit.window
  have hpass := evaluate_expired hsound w.identified w.named hsel hexp .fail freshID
  have hlisting : listing w (alone object hne) s.lastSeenKey = [object] := by
    simp [listing, alone, hkey, hlist]
  have hnames : ¬ (w.jobDefinitionID = "" ∨ w.trigger.name = "") :=
    not_or.mpr ⟨w.identified, w.named⟩
  have hprocess : (process w (undisturbed w freshID) states object).2 = .submitted := by
    cases heval : Evaluator.evaluate states w.jobDefinitionID w.trigger (.ok true) .fail
        (undisturbed w freshID).now freshID fun _ => none with
    | mk states' result =>
      rw [heval] at hpass
      have hres : result = .ok true := hpass
      subst hres
      unfold process
      rw [hsuf, htemp]
      have hcall : Evaluator.evaluate states w.jobDefinitionID w.trigger (.ok true)
          (undisturbed w freshID).onConflict ((undisturbed w freshID).evaluatedAt object)
          (undisturbed w freshID).freshID ((undisturbed w freshID).evaluationFault object) =
            (states', .ok true) := heval
      rw [hcall]
      rfl
  have hpoll : (poll w (undisturbed w freshID) (alone object hne) states).outcomes =
      [(object, (process w (undisturbed w freshID) states object).2)] := by
    simp only [poll, undisturbed, findByJobAndTrigger, if_neg hnames, hsel, pollFrom, hlisting]
    rfl
  rw [hpoll, hprocess]
  exact List.mem_singleton_self _

theorem first_poll_empty (w : Watched) (bucket : Bucket) :
    ∃ states s, poll w { freshID := "t1", now := 0 } bucket empty = ⟨states, []⟩ ∧
      Sound states ∧ Fresh states "t2" ∧
      states.select w.jobDefinitionID w.trigger.name = some s ∧ s.windowStart = 0 ∧
      s.lastSeenKey = "" := by
  have hempty : Sound empty := by decide
  have hfresh : Fresh empty "t1" := ⟨by decide, rfl⟩
  obtain ⟨states, hups, hsound, hsel, hins⟩ := hempty.upsert_new
    (d := w.jobDefinitionID) (t := w.trigger.name) rfl hfresh
    { jobDefinitionID := w.jobDefinitionID, triggerName := w.trigger.name, lastSeenTime := 0 } rfl
    (isFor_iff.mpr ⟨rfl, rfl⟩) .fail
  refine ⟨states, _, ?_, hsound, ⟨by decide, ?_⟩, hsel, rfl, rfl⟩
  · have hnames : ¬ (w.jobDefinitionID = "" ∨ w.trigger.name = "") :=
      not_or.mpr ⟨w.identified, w.named⟩
    have hnone : select empty w.jobDefinitionID w.trigger.name = none := rfl
    simp only [poll, findByJobAndTrigger, if_neg hnames, hnone, firstPoll, hups]
    rfl
  · have hne : "t2" ≠ "t1" := by decide
    rw [find?_insert? hins, if_neg hne]
    rfl

/-- A trigger back-fills objects that existed at its first poll exactly if it accepts any. -/
theorem backfill_iff (w : Watched) (bucket : Bucket) :
    (∀ (states : TriggerStates) (before after : List Action) (env : Surroundings) (h' : History),
        Sound states → states.select w.jobDefinitionID w.trigger.name = none →
        (∀ action ∈ before, action.isPoll = false) →
        (system w).runWith (fun _ _ => True) ⟨states, []⟩ (before ++ .poll env bucket :: after) =
          some h' →
        ∀ x ∈ h'.polls.flatten, x.1 ∈ bucket.objects → x.2.isSubmitted = false) ↔
      ∀ object ∈ bucket.objects, ¬ Accepts w object := by
  constructor
  · intro hnever object hobj hacc
    have hne := bucket.nonempty object hobj
    obtain ⟨states, s, hfirst, hsound, hfresh, hsel, hstart, hkey⟩ := first_poll_empty w bucket
    have hsubmitted := submitted_alone "t2" hsound hsel hstart hkey hne hacc
    -- the other objects are deleted before the second poll
    have hrun : (system w).runWith (fun _ _ => True) ⟨empty, []⟩
        ([] ++ .poll { freshID := "t1", now := 0 } bucket ::
          [.poll (undisturbed w "t2") (alone object hne)]) =
        some ⟨(poll w (undisturbed w "t2") (alone object hne) states).states,
          [(poll w (undisturbed w "t2") (alone object hne) states).outcomes, []]⟩ := by
      refine runWith_cons_eq_some.mpr ⟨trivial, ⟨states, [[]]⟩, ?_, ?_⟩
      · simp only [system, step, perform, hfirst]
        rfl
      · refine runWith_cons_eq_some.mpr ⟨trivial, _, ?_, rfl⟩
        simp only [system, step, perform]
        exact if_pos hfresh
    have hlater := hnever empty [] _ _ _ (by decide) rfl (by simp) hrun
      (object, .submitted) (by simp [hsubmitted]) hobj
    cases hlater
  · intro hnone states before after env h' hsound _ _ hrun x hx hold
    have hinv : OnlyAccepted w ⟨states, []⟩ := ⟨hsound, fun x hx => absurd hx List.not_mem_nil⟩
    refine Bool.eq_false_iff.mpr fun hsub => ?_
    have hinv' := runWith_invariant (fun _ _ _ h _ => onlyAccepted_step h) hinv hrun
    exact hnone x.1 hold (hinv'.accepted x hx hsub)

/-- Two objects are older than the trigger, and are submitted by its second poll. -/
theorem old_objects_submitted : ((system inbox).runWith (fun _ _ => True) ⟨Table.empty, []⟩
      [.poll { freshID := "t1", now := 10 } twoObjects,
        .poll { freshID := "t2", now := 70 } twoObjects]).map (fun h =>
        h.polls.map fun poll => poll.map fun x => (x.1, x.2)) =
      some [[(object "a", .submitted), (object "b", .submitted)], []] := by
  decide

end Formicary.S3Poller

import Formicary.Model.S3Poller
import Formicary.Verification.Trigger.States

/-! # What a poll does

A poll looks at the objects after the marker in the order of their keys. -/

namespace Formicary.S3Poller

open TriggerStates List

variable {w : Watched} {env : Surroundings} {bucket : Bucket} {states : TriggerStates}

def markerOf (w : Watched) (states : TriggerStates) : String :=
  states.marker w.jobDefinitionID w.trigger.name

variable {object : S3Object} {states' : TriggerStates}

theorem accepted_of_process {outcome : Outcome}
    (h : process w env states object = (states', outcome)) (hsub : outcome.isSubmitted = true) :
    w.templates object = .ok true := by
  unfold process at h
  split at h
  · cases h
    cases hsub
  cases htemp : w.templates object with
  | error =>
    rw [htemp] at h
    cases h
    cases hsub
  | ok passes => cases passes with
    | true => rfl
    | false =>
      rw [htemp] at h
      cases h
      cases hsub

theorem evaluated_process (env : Surroundings) (states : TriggerStates) (object : S3Object) :
    (process w env states object).2.evaluated = hasSuffix w object := by
  unfold process
  cases hsuf : hasSuffix w object with
  | false => rfl
  | true =>
    simp only [Bool.not_true, Bool.false_eq_true, if_false]
    split
    · rfl
    · rfl
    · split <;> rfl

theorem keeps_evaluate {trigger : TriggerDefinition} {d freshID : String} (h : Sound states)
    (hrow : states.select d trigger.name ≠ none) {templates : Except Error Bool}
    {onConflict : OnConflict} {now : Time} {fault : Statement → Option Error}
    {result : Except Error Bool} (heq : Evaluator.evaluate states d trigger templates onConflict now
      freshID fault = (states', result)) : Keeps d trigger.name states states' := by
  unfold Evaluator.evaluate at heq
  split at heq
  · cases heq
    exact Keeps.refl h
  · cases heq
    exact Keeps.refl h
  split at heq
  · cases heq
    exact Keeps.refl h
  split at heq <;> cases heq
  · exact h.keeps_incrementWindowCount (fun hnone => absurd hnone hrow) onConflict _ now fault
  · exact Keeps.refl h

theorem keeps_process (h : Sound states)
    (hrow : states.select w.jobDefinitionID w.trigger.name ≠ none) (object : S3Object) :
    Keeps w.jobDefinitionID w.trigger.name states (process w env states object).1 := by
  unfold process
  split
  · exact Keeps.refl h
  split
  · next heq => exact keeps_evaluate h hrow heq
  · next heq => exact keeps_evaluate h hrow heq
  next heq =>
  have heval := keeps_evaluate h hrow heq
  split
  · refine heval.trans (heval.sound.keeps_recordFired (fun hnone => ?_) _)
    exact absurd (heval.select_eq_none hnone) hrow
  · exact heval
  · exact heval

def lastGood (outcomes : List (S3Object × Outcome)) : String :=
  outcomes.foldl (fun key x => if x.2.failed then key else x.1.key) ""

/-- What the loop has done with the objects so far. -/
structure LoopSpec (w : Watched) (states : TriggerStates) (objects : List S3Object) (loop : Loop) :
    Prop where
  keeps : Keeps w.jobDefinitionID w.trigger.name states loop.states
  objects : loop.outcomes.map Prod.fst = objects
  lastKey : loop.lastKey = lastGood loop.outcomes
  evaluated : ∀ x ∈ loop.outcomes, x.2.evaluated = hasSuffix w x.1
  accepted : ∀ x ∈ loop.outcomes, x.2.isSubmitted = true → w.templates x.1 = .ok true

theorem loopSpec_visit {objects : List S3Object} {loop : Loop}
    (hrow : states.select w.jobDefinitionID w.trigger.name ≠ none)
    (h : LoopSpec w states objects loop) (object : S3Object) :
    LoopSpec w states (objects ++ [object]) (visit w env loop object) := by
  have hrow' : loop.states.select w.jobDefinitionID w.trigger.name ≠ none :=
    fun hnone => hrow (h.keeps.select_eq_none hnone)
  constructor
  · exact h.keeps.trans (keeps_process h.keeps.sound hrow' object)
  · simp only [visit, map_append, h.objects, map_cons, map_nil]
  · simp only [visit, lastGood, foldl_append, foldl_cons, foldl_nil]
    rw [h.lastKey, lastGood]
  · refine forall_mem_append.mpr ⟨h.evaluated, forall_mem_singleton.mpr ?_⟩
    exact evaluated_process env loop.states object
  · refine forall_mem_append.mpr ⟨h.accepted, forall_mem_singleton.mpr fun hsub => ?_⟩
    exact accepted_of_process rfl hsub

theorem loopSpec_foldl (env : Surroundings) (h : Sound states)
    (hrow : states.select w.jobDefinitionID w.trigger.name ≠ none) (objects : List S3Object) :
    LoopSpec w states objects (objects.foldl (visit w env) ⟨states, "", []⟩) := by
  induction objects using reverseRecOn with
  | nil => exact ⟨Keeps.refl h, rfl, rfl, by simp, by simp⟩
  | append_singleton objects object ih =>
    rw [foldl_append]
    exact loopSpec_visit hrow ih object

theorem lastGood_append (outcomes : List (S3Object × Outcome)) (x : S3Object × Outcome) :
    lastGood (outcomes ++ [x]) = if x.2.failed then lastGood outcomes else x.1.key := by
  simp [lastGood]

theorem lastGood_mem (outcomes : List (S3Object × Outcome)) : lastGood outcomes = "" ∨
      ∃ x ∈ outcomes, x.2.failed = false ∧ x.1.key = lastGood outcomes := by
  induction outcomes using reverseRecOn with
  | nil => exact .inl rfl
  | append_singleton outcomes x ih =>
    rw [lastGood_append]
    cases hx : x.2.failed with
    | false => exact .inr ⟨x, by simp, hx, rfl⟩
    | true =>
      refine ih.imp_right ?_
      rintro ⟨y, hy, hgood, hkey⟩
      exact ⟨y, mem_append_left _ hy, hgood, hkey⟩

theorem le_lastGood {outcomes : List (S3Object × Outcome)}
    (hsort : (outcomes.map fun x => x.1.key).Pairwise (· < ·)) {x : S3Object × Outcome}
    (hx : x ∈ outcomes) (hgood : x.2.failed = false) : x.1.key ≤ lastGood outcomes := by
  induction outcomes using reverseRecOn with
  | nil => cases hx
  | append_singleton outcomes y ih =>
    rw [map_append, pairwise_append] at hsort
    have hlast : ∀ z ∈ outcomes, z.1.key < y.1.key := fun z hz =>
      hsort.2.2 _ (mem_map_of_mem hz) _ (by simp)
    rw [lastGood_append]
    rcases mem_append.mp hx with hx | hx
    · cases hy : y.2.failed with
      | false => exact (hlast x hx).le
      | true => exact ih hsort.1 hx
    · rw [mem_singleton.mp hx] at hgood ⊢
      simp [hgood]

theorem empty_lt {s : String} (h : s ≠ "") : "" < s := by
  rw [String.lt_iff_toList_lt]
  cases hs : s.toList with
  | nil => exact absurd (String.toList_eq_nil_iff.mp hs) h
  | cons c cs => exact nil_lt_cons c cs

theorem mem_listing {marker : String} : object ∈ listing w bucket marker ↔
      object ∈ bucket.objects ∧ Text.startsWith object.key w.trigger.keyPrefix = true ∧
        marker < object.key := by
  have hafter : object ∈ bucket.objects → (marker = "" ∨ marker < object.key ↔
      marker < object.key) := by
    intro hmem
    refine or_iff_right_of_imp ?_
    rintro rfl
    exact empty_lt (bucket.nonempty object hmem)
  rw [listing, mem_filter, Bool.and_eq_true, Bool.or_eq_true, beq_iff_eq, decide_eq_true_eq]
  exact and_congr_right fun hmem => and_congr_right fun _ => hafter hmem

/-- What a poll does with the objects after the marker, and to the marker. -/
structure PollSpec (w : Watched) (env : Surroundings) (bucket : Bucket) (states : TriggerStates)
    (polled : Polled) : Prop where
  sound : Sound polled.states
  row : states.select w.jobDefinitionID w.trigger.name ≠ none →
    polled.states.select w.jobDefinitionID w.trigger.name ≠ none
  objects : polled.outcomes.map Prod.fst <+: listing w bucket (markerOf w states)
  all : env.findFault = none → env.listed = none →
    states.select w.jobDefinitionID w.trigger.name ≠ none →
    polled.outcomes.map Prod.fst = listing w bucket (markerOf w states)
  found : polled.outcomes ≠ [] → states.select w.jobDefinitionID w.trigger.name ≠ none
  evaluated : ∀ x ∈ polled.outcomes, x.2.evaluated = hasSuffix w x.1
  accepted : ∀ x ∈ polled.outcomes, x.2.isSubmitted = true → w.templates x.1 = .ok true
  marker : markerOf w polled.states =
    if env.listed = none ∧ env.saveFault = none ∧ lastGood polled.outcomes ≠ "" then
      lastGood polled.outcomes
    else markerOf w states

theorem keeps_firstPoll (h : Sound states) (hfresh : Fresh states env.freshID)
    (hsel : states.select w.jobDefinitionID w.trigger.name = none) :
    Keeps w.jobDefinitionID w.trigger.name states (firstPoll w env states) := by
  unfold firstPoll
  split
  · exact Keeps.refl h
  obtain ⟨states', hups, hsound, hsel', -⟩ := h.upsert_new hsel hfresh
    { jobDefinitionID := w.jobDefinitionID, triggerName := w.trigger.name,
      lastSeenTime := env.now } rfl (isFor_iff.mpr ⟨rfl, rfl⟩) env.onConflict
  rw [hups]
  exact Keeps.of_none hsound hsel hsel' rfl

theorem pollSpec_of_keeps (h : Keeps w.jobDefinitionID w.trigger.name states states')
    (hnot : env.findFault ≠ none ∨ states.select w.jobDefinitionID w.trigger.name = none) :
    PollSpec w env bucket states ⟨states', []⟩ where
  sound := h.sound
  row hrow hnone := hrow (h.select_eq_none hnone)
  objects := nil_prefix
  all hfind _ hrow := (hnot.elim (absurd hfind) (absurd · hrow))
  found hne := absurd rfl hne
  evaluated := by simp
  accepted := by simp
  marker := by
    rw [if_neg fun h => h.2.2 rfl]
    exact h.marker

theorem marker_storeKey {s : TriggerState} (env : Surroundings)
    (lastKey : String) (hsel : states.select w.jobDefinitionID w.trigger.name = some s)
    (h : Keeps w.jobDefinitionID w.trigger.name states states')
    (hsfor : isFor w.jobDefinitionID w.trigger.name s = true) :
    Sound (storeKey env s lastKey states') ∧
      (storeKey env s lastKey states').select w.jobDefinitionID w.trigger.name ≠ none ∧
      markerOf w (storeKey env s lastKey states') =
        if env.saveFault = none ∧ lastKey ≠ "" then lastKey else markerOf w states := by
  obtain ⟨s', hsel', hid⟩ := h.row s hsel
  have hrow' : states'.select w.jobDefinitionID w.trigger.name ≠ none := by
    rw [hsel']
    exact Option.some_ne_none s'
  have hmark : markerOf w states = s.lastSeenKey := by
    rw [markerOf, TriggerStates.marker, hsel]
    rfl
  unfold storeKey
  split
  · next hmoves =>
    split
    · next err hfault =>
      refine ⟨h.sound, hrow', ?_⟩
      rw [if_neg fun hboth => by rw [hfault] at hboth; cases hboth.1]
      exact h.marker
    next hfault =>
    obtain ⟨hups, hsound, hstor⟩ := h.sound.upsert_row hsel'
      { s with lastSeenKey := lastKey, lastSeenTime := env.now } hid.symm hsfor
      env.onConflict env.freshID
    rw [hups]
    refine ⟨hsound, ?_, ?_⟩
    · exact fun hnone => Option.some_ne_none _ (hstor.symm.trans hnone)
    · rw [if_pos ⟨hfault, hmoves.1⟩]
      exact congrArg (fun row => Option.elim row "" TriggerState.lastSeenKey) hstor
  · next hstays =>
    refine ⟨h.sound, hrow', ?_⟩
    have hkeep : markerOf w states' = markerOf w states := h.marker
    rw [hkeep]
    split
    · next hboth =>
      by_contra hne
      exact hstays ⟨hboth.2, fun heq => hne (hmark.trans heq.symm)⟩
    · rfl

theorem pollSpec_pollFrom {s : TriggerState} (h : Sound states)
    (hsel : states.select w.jobDefinitionID w.trigger.name = some s) :
    PollSpec w env bucket states (pollFrom w env bucket s states) := by
  have hrow : states.select w.jobDefinitionID w.trigger.name ≠ none := by
    rw [hsel]
    exact Option.some_ne_none s
  have hmark : s.lastSeenKey = markerOf w states := by
    rw [markerOf, TriggerStates.marker, hsel]
    rfl
  have hsfor := (h.select_eq_some_iff.mp hsel).2
  unfold pollFrom
  rw [hmark]
  cases hlist : env.listed with
  | some n =>
    have hloop := loopSpec_foldl env h hrow ((listing w bucket (markerOf w states)).take n)
    refine ⟨hloop.keeps.sound, fun _ hnone => hrow (hloop.keeps.select_eq_none hnone), ?_, ?_,
      fun _ => hrow, hloop.evaluated, hloop.accepted, ?_⟩
    · rw [hloop.objects]
      exact take_prefix n _
    · intro _ hnone
      rw [hlist] at hnone
      cases hnone
    · rw [if_neg fun hboth => by rw [hlist] at hboth; cases hboth.1]
      exact hloop.keeps.marker
  | none =>
    have hloop := loopSpec_foldl env h hrow (listing w bucket (markerOf w states))
    obtain ⟨hsound, hrow', hstor⟩ := marker_storeKey env
      ((listing w bucket (markerOf w states)).foldl (visit w env) ⟨states, "", []⟩).lastKey
      hsel hloop.keeps hsfor
    refine ⟨hsound, fun _ => hrow', ?_, fun _ _ _ => hloop.objects, fun _ => hrow,
      hloop.evaluated, hloop.accepted, ?_⟩
    · rw [hloop.objects]
    · rw [hstor, hloop.lastKey]
      simp only [hlist, true_and]

theorem pollSpec_poll (h : Sound states) (hfresh : Fresh states env.freshID) :
    PollSpec w env bucket states (poll w env bucket states) := by
  unfold poll
  cases hfind : env.findFault with
  | some err =>
    exact pollSpec_of_keeps (Keeps.refl h) (.inl (by rw [hfind]; exact Option.some_ne_none err))
  | none =>
    have hnames : ¬ (w.jobDefinitionID = "" ∨ w.trigger.name = "") :=
      not_or.mpr ⟨w.identified, w.named⟩
    rw [findByJobAndTrigger, if_neg hnames]
    cases hsel : states.select w.jobDefinitionID w.trigger.name with
    | none => exact pollSpec_of_keeps (keeps_firstPoll h hfresh hsel) (.inr hsel)
    | some => exact pollSpec_pollFrom h hsel

end Formicary.S3Poller

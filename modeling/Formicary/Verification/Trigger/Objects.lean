import Formicary.Verification.Trigger.Polls

/-! # Objects over many polls

An object that failed is looked at again unless a later object of the same poll did not fail and the
marker could be stored. -/

namespace Formicary.S3Poller

open TriggerStates List

variable {w : Watched} {env env' : Surroundings} {bucket bucket' : Bucket} {h h' : History}
  {action : Action}

def Action.isPoll : Action → Bool
  | .poll _ _ => true
  | _ => false

theorem step_eq_some (hstep : (system w).step h action = some h') :
    Fresh h.states action.freshID ∧ h' = perform w h action := by
  simp only [system, step] at hstep
  split at hstep
  · next hfresh => exact ⟨hfresh, (Option.some.inj hstep).symm⟩
  · cases hstep

section

variable (hsound : Sound h.states)
include hsound

theorem keeps_step (hpoll : action.isPoll = false) (hstep : (system w).step h action = some h') :
    Keeps w.jobDefinitionID w.trigger.name h.states h'.states ∧ h'.polls = h.polls := by
  obtain ⟨hfresh, rfl⟩ := step_eq_some hstep
  cases action with
  | poll => cases hpoll
  | incrementWindowCount onConflict window now freshID fault =>
    exact ⟨hsound.keeps_incrementWindowCount (fun _ => hfresh) onConflict window now fault, rfl⟩
  | recordFired now => exact ⟨hsound.keeps_recordFired (fun _ => hfresh) now, rfl⟩

theorem pollSpec_step (hstep : (system w).step h (.poll env bucket) = some h') :
    PollSpec w env bucket h.states (poll w env bucket h.states) ∧
      h'.states = (poll w env bucket h.states).states ∧
      h'.polls = (poll w env bucket h.states).outcomes :: h.polls := by
  obtain ⟨hfresh, rfl⟩ := step_eq_some hstep
  exact ⟨pollSpec_poll hsound hfresh, rfl, rfl⟩

theorem sound_step (hstep : (system w).step h action = some h') : Sound h'.states := by
  cases action with
  | poll =>
    obtain ⟨hspec, hsts, -⟩ := pollSpec_step hsound hstep
    rw [hsts]
    exact hspec.sound
  | incrementWindowCount | recordFired =>
    exact (keeps_step hsound rfl hstep).1.sound

theorem keeps_run {actions : List Action} (hpoll : ∀ action ∈ actions, action.isPoll = false)
    (hrun : (system w).runWith (fun _ _ => True) h actions = some h') :
    Keeps w.jobDefinitionID w.trigger.name h.states h'.states := by
  induction actions generalizing h with
  | nil =>
    cases hrun
    exact Keeps.refl hsound
  | cons action actions ih =>
    obtain ⟨-, h₁, hstep, hrest⟩ := TransitionSystem.runWith_cons_eq_some.mp hrun
    have hfirst := (keeps_step hsound (hpoll action mem_cons_self) hstep).1
    exact hfirst.trans (ih hfirst.sound (fun a ha => hpoll a (mem_cons_of_mem _ ha)) hrest)

end

section PollSpec

variable {states : TriggerStates} {polled : Polled} {x y : S3Object × Outcome}
  (hspec : PollSpec w env bucket states polled)
include hspec

theorem PollSpec.sorted : (polled.outcomes.map fun x => x.1.key).Pairwise (· < ·) := by
  have hkeys : (polled.outcomes.map fun x => x.1.key) =
      (polled.outcomes.map Prod.fst).map S3Object.key := by
    rw [map_map]
    rfl
  rw [hkeys]
  exact bucket.sorted.sublist ((hspec.objects.sublist.trans filter_sublist).map S3Object.key)

theorem PollSpec.listed (hx : x ∈ polled.outcomes) : x.1 ∈ listing w bucket (markerOf w states) :=
  hspec.objects.subset (mem_map_of_mem hx)

theorem PollSpec.lastGood_lt_iff (hx : x ∈ polled.outcomes) (hfail : x.2.failed = true) :
    (lastGood polled.outcomes = "" ∨ lastGood polled.outcomes < x.1.key) ↔
      ∀ y ∈ polled.outcomes, x.1.key < y.1.key → y.2.failed = true := by
  constructor
  · intro hlast y hy hlt
    by_contra hgood
    have hle := le_lastGood hspec.sorted hy (Bool.eq_false_iff.mpr hgood)
    rcases hlast with hempty | hbef
    · rw [hempty] at hle
      have hne : y.1.key ≠ "" := bucket.nonempty y.1 (mem_listing.mp (hspec.listed hy)).1
      exact absurd (empty_lt hne) hle.not_gt
    · exact absurd (hbef.trans hlt) hle.not_gt
  · intro hlater
    rcases lastGood_mem polled.outcomes with hempty | ⟨y, hy, hgood, hkey⟩
    · exact .inl hempty
    right
    rw [← hkey]
    rcases lt_trichotomy y.1.key x.1.key with hlt | heq | hgt
    · exact hlt
    · have hnodup : (polled.outcomes.map fun x => x.1.key).Nodup := hspec.sorted.imp fun h => h.ne
      rw [inj_on_of_nodup_map hnodup hy hx heq, hfail] at hgood
      cases hgood
    · rw [hlater y hy hgt] at hgood
      cases hgood

theorem PollSpec.marker_lt_iff (hx : x ∈ polled.outcomes) (hfail : x.2.failed = true) :
    markerOf w polled.states < x.1.key ↔ env.listed ≠ none ∨ env.saveFault ≠ none ∨
        ∀ y ∈ polled.outcomes, x.1.key < y.1.key → y.2.failed = true := by
  have hbef : markerOf w states < x.1.key := (mem_listing.mp (hspec.listed hx)).2.2
  rw [hspec.marker, ← hspec.lastGood_lt_iff hx hfail]
  by_cases hmoved : env.listed = none ∧ env.saveFault = none ∧ lastGood polled.outcomes ≠ ""
  · rw [if_pos hmoved]
    simp only [hmoved.1, hmoved.2.1, hmoved.2.2, ne_eq, not_true_eq_false, false_or]
  rw [if_neg hmoved]
  refine iff_of_true hbef ?_
  by_cases hlist : env.listed = none
  · by_cases hsave : env.saveFault = none
    · refine .inr (.inr (.inl ?_))
      by_contra hlast
      exact hmoved ⟨hlist, hsave, hlast⟩
    · exact .inr (.inl hsave)
  · exact .inl hlist

theorem PollSpec.evaluates_iff (hfind : env.findFault = none) (hlist : env.listed = none)
    (hrow : states.select w.jobDefinitionID w.trigger.name ≠ none) {object : S3Object}
    (hobj : object ∈ bucket.objects) (hmatch : matchesObject w object = true) :
    (∃ outcome, (object, outcome) ∈ polled.outcomes ∧ outcome.evaluated = true) ↔
      markerOf w states < object.key := by
  obtain ⟨hstart, hsuf⟩ := Bool.and_eq_true_iff.mp hmatch
  have hall := hspec.all hfind hlist hrow
  constructor
  · rintro ⟨outcome, hmem, -⟩
    exact (mem_listing.mp (hspec.listed hmem)).2.2
  intro hafter
  have hmem : object ∈ polled.outcomes.map Prod.fst := by
    rw [hall]
    exact mem_listing.mpr ⟨hobj, hstart, hafter⟩
  obtain ⟨x, hx, rfl⟩ := mem_map.mp hmem
  exact ⟨x.2, hx, by rw [hspec.evaluated x hx, hsuf]⟩

end PollSpec

theorem evaluated_of_failed {outcome : Outcome} (hfail : outcome.failed = true) :
    outcome.evaluated = true := by
  cases outcome <;> first | rfl | cases hfail

theorem retried_iff {h₁ h₂ h₃ : History} {between : List Action} {x : S3Object × Outcome}
    {object : S3Object} (hsound : Sound h.states)
    (hfirst : (system w).step h (.poll env bucket) = some h₁)
    (hpoll : ∀ action ∈ between, action.isPoll = false)
    (hbetw : (system w).runWith (fun _ _ => True) h₁ between = some h₂)
    (hnext : (system w).step h₂ (.poll env' bucket') = some h₃)
    (hfind : env'.findFault = none) (hlist : env'.listed = none)
    (hx : x ∈ (poll w env bucket h.states).outcomes) (hfail : x.2.failed = true)
    (hobj : object ∈ bucket'.objects) (hkey : object.key = x.1.key) :
    (∃ outcome, (object, outcome) ∈ (poll w env' bucket' h₂.states).outcomes ∧
        outcome.evaluated = true) ↔
      env.listed ≠ none ∨ env.saveFault ≠ none ∨
        ∀ y ∈ (poll w env bucket h.states).outcomes, x.1.key < y.1.key → y.2.failed = true := by
  obtain ⟨hspec, hsts, -⟩ := pollSpec_step hsound hfirst
  have hsound₁ : Sound h₁.states := hsts ▸ hspec.sound
  have hkeeps := keeps_run hsound₁ hpoll hbetw
  obtain ⟨hspec', -, -⟩ := pollSpec_step hkeeps.sound hnext
  have hrow : h₂.states.select w.jobDefinitionID w.trigger.name ≠ none := by
    intro hnone
    have hnone₁ := hkeeps.select_eq_none hnone
    rw [hsts] at hnone₁
    exact hspec.row (hspec.found (ne_nil_of_mem hx)) hnone₁
  -- whether a trigger is about an object depends on its key
  have hmatch : matchesObject w object = true := by
    obtain ⟨-, hstart, -⟩ := mem_listing.mp (hspec.listed hx)
    have hsuf := (hspec.evaluated x hx).symm.trans (evaluated_of_failed hfail)
    rw [hasSuffix] at hsuf
    rw [matchesObject, hasSuffix, hkey, hstart, hsuf, Bool.and_self]
  have hmark : markerOf w h₂.states = markerOf w (poll w env bucket h.states).states := by
    rw [← hsts]
    exact hkeeps.marker
  rw [hspec'.evaluates_iff hfind hlist hrow hobj hmatch, hmark, hkey]
  exact hspec.marker_lt_iff hx hfail

def submittedKeys (h : History) : List String :=
  (h.polls.flatten.filter fun x => x.2.isSubmitted).map fun x => x.1.key

/-- The listing is complete, and the marker can be stored. -/
def Complete (_ : History) : Action → Prop
  | .poll env _ => env.listed.isNone = true ∧ env.saveFault.isNone = true
  | _ => True

instance (h : History) (action : Action) : Decidable (Complete h action) := by
  cases action <;> dsimp only [Complete] <;> infer_instance

/-- No key was submitted twice, and none after the marker. -/
structure SubmittedOnce (w : Watched) (h : History) : Prop where
  sound : Sound h.states
  nodup : (submittedKeys h).Nodup
  before : ∀ key ∈ submittedKeys h, key ≤ markerOf w h.states

theorem not_failed_of_isSubmitted {outcome : Outcome} (hsub : outcome.isSubmitted = true) :
    outcome.failed = false := by
  cases outcome <;> first | rfl | cases hsub

theorem submittedOnce_poll (hinv : SubmittedOnce w h) (hcompl : Complete h (.poll env bucket))
    (hstep : (system w).step h (.poll env bucket) = some h') : SubmittedOnce w h' := by
  obtain ⟨hspec, hsts, hpolls⟩ := pollSpec_step hinv.sound hstep
  obtain ⟨hlist, hsave⟩ := hcompl
  rw [Option.isNone_iff_eq_none] at hlist hsave
  have hkeys : submittedKeys h' =
      ((poll w env bucket h.states).outcomes.filter fun x => x.2.isSubmitted).map
        (fun x => x.1.key) ++ submittedKeys h := by
    rw [submittedKeys, submittedKeys, hpolls, flatten_cons, filter_append, map_append]
  -- what is submitted now lies after the old marker and not after the new one
  have hnew : ∀ key ∈ ((poll w env bucket h.states).outcomes.filter
      fun x => x.2.isSubmitted).map (fun x => x.1.key),
      markerOf w h.states < key ∧ key ≤ markerOf w h'.states := by
    intro key hkey
    obtain ⟨x, hx, rfl⟩ := mem_map.mp hkey
    obtain ⟨hx, hsub⟩ := mem_filter.mp hx
    have hlt := (mem_listing.mp (hspec.listed hx)).2.2
    have hle := le_lastGood hspec.sorted hx (not_failed_of_isSubmitted hsub)
    refine ⟨hlt, ?_⟩
    have hmoved : lastGood (poll w env bucket h.states).outcomes ≠ "" := by
      intro hempty
      rw [hempty] at hle
      exact absurd (empty_lt (bucket.nonempty x.1 (mem_listing.mp (hspec.listed hx)).1)) hle.not_gt
    rw [hsts, hspec.marker, if_pos ⟨hlist, hsave, hmoved⟩]
    exact hle
  have hforward : markerOf w h.states ≤ markerOf w h'.states := by
    rw [hsts, hspec.marker]
    split
    · next hmoved =>
      rcases lastGood_mem (poll w env bucket h.states).outcomes with hempty | ⟨x, hx, -, hkey⟩
      · exact absurd hempty hmoved.2.2
      rw [← hkey]
      exact (mem_listing.mp (hspec.listed hx)).2.2.le
    · exact le_rfl
  refine ⟨hsts ▸ hspec.sound, ?_, ?_⟩
  · rw [hkeys, nodup_append]
    refine ⟨?_, hinv.nodup, ?_⟩
    · exact (hspec.sorted.sublist (filter_sublist.map _)).imp fun hlt => hlt.ne
    · rintro key hkey _ hold rfl
      exact absurd (hnew key hkey).1 (hinv.before key hold).not_gt
  · intro key hkey
    rw [hkeys, mem_append] at hkey
    rcases hkey with hkey | hkey
    · exact (hnew key hkey).2
    · exact (hinv.before key hkey).trans hforward

theorem submittedOnce_step (hinv : SubmittedOnce w h) (hcompl : Complete h action)
    (hstep : (system w).step h action = some h') : SubmittedOnce w h' := by
  cases hpoll : action.isPoll with
  | true => cases action with
    | poll => exact submittedOnce_poll hinv hcompl hstep
    | incrementWindowCount | recordFired => cases hpoll
  | false =>
    obtain ⟨hkeeps, hpolls⟩ := keeps_step hinv.sound hpoll hstep
    have hmark : markerOf w h'.states = markerOf w h.states := hkeeps.marker
    have hkeys : submittedKeys h' = submittedKeys h := by
      rw [submittedKeys, hpolls, submittedKeys]
    exact ⟨hkeeps.sound, hkeys ▸ hinv.nodup, fun key hkey =>
      hmark ▸ hinv.before key (hkeys ▸ hkey)⟩

/-- Three things hold of a trigger with any state. An object that failed is evaluated again by the
next complete poll exactly if the marker did not move, or everything after the object has failed
too. A complete poll evaluates every object that the trigger is about and that comes after the
marker. No object is submitted twice if listings are complete and the marker can be stored. -/
theorem objects_delivered (w : Watched) {states : TriggerStates} (hsound : Sound states) :
    (∀ (env env' : Surroundings) (bucket bucket' : Bucket) (between : List Action)
        (h₁ h₂ h₃ : History) (x : S3Object × Outcome) (object : S3Object),
        (system w).step ⟨states, []⟩ (.poll env bucket) = some h₁ →
        (∀ action ∈ between, action.isPoll = false) →
        (system w).runWith (fun _ _ => True) h₁ between = some h₂ →
        (system w).step h₂ (.poll env' bucket') = some h₃ →
        env'.findFault = none → env'.listed = none →
        x ∈ (poll w env bucket states).outcomes → x.2.failed = true →
        object ∈ bucket'.objects → object.key = x.1.key →
        ((∃ outcome, (object, outcome) ∈ (poll w env' bucket' h₂.states).outcomes ∧
            outcome.evaluated = true) ↔
          env.listed ≠ none ∨ env.saveFault ≠ none ∨
            ∀ y ∈ (poll w env bucket states).outcomes, x.1.key < y.1.key → y.2.failed = true)) ∧
      (∀ (env : Surroundings) (bucket : Bucket) (object : S3Object),
        Fresh states env.freshID → env.findFault = none → env.listed = none →
        states.select w.jobDefinitionID w.trigger.name ≠ none →
        object ∈ bucket.objects → matchesObject w object = true →
        markerOf w states < object.key →
        ∃ outcome, (object, outcome) ∈ (poll w env bucket states).outcomes ∧
          outcome.evaluated = true) ∧
      ∀ (actions : List Action) (h' : History),
        (system w).runWith Complete ⟨states, []⟩ actions = some h' → (submittedKeys h').Nodup := by
  refine ⟨?_, ?_, ?_⟩
  · intro env env' bucket bucket' between h₁ h₂ h₃ x object hfirst hpoll hbetw hnext hfind
      hlist hx hfail hobj hkey
    exact retried_iff hsound hfirst hpoll hbetw hnext hfind hlist hx hfail hobj hkey
  · intro env bucket object hfresh hfind hlist hrow hobj hmatch hafter
    exact ((pollSpec_poll hsound hfresh).evaluates_iff hfind hlist hrow hobj hmatch).mpr hafter
  · intro actions h' hrun
    have hinit : SubmittedOnce w ⟨states, []⟩ :=
      ⟨hsound, nodup_nil, fun key hkey => absurd hkey not_mem_nil⟩
    exact (TransitionSystem.runWith_invariant (fun _ _ _ => submittedOnce_step) hinit hrun).nodup

def inbox : Watched where
  jobDefinitionID := "d1"
  trigger := { type := .s3, name := "inbox" }
  templates _ := .ok true

def object (key : String) : S3Object := ⟨key, "", 0, 0⟩

def twoObjects : Bucket := ⟨[object "a", object "b"], by decide, by decide⟩

def waiting : TriggerStates := ⟨[{ id := "t1", jobDefinitionID := "d1", triggerName := "inbox" }],
  by decide⟩

/-- A poll during which the object with the given key cannot be submitted. -/
def failing (key : String) : Surroundings where
  submission object := if object.key = key then .failed else .saved
  freshID := "t2"
  now := 10

/-- The last object fails, and is evaluated again. -/
theorem objects_delivered_last :
    ∃ outcome, (object "b", outcome) ∈ (poll inbox (failing "") twoObjects
        (poll inbox (failing "b") twoObjects waiting).states).outcomes ∧
      outcome.evaluated = true := by
  have hsound : Sound waiting := by decide
  have hx : (object "b", Outcome.submissionFailed) ∈
      (poll inbox (failing "b") twoObjects waiting).outcomes := by decide
  refine ((objects_delivered inbox hsound).1 (failing "b") (failing "") twoObjects twoObjects [] _ _
    _ (object "b", .submissionFailed) (object "b") rfl (by simp) rfl rfl rfl rfl hx rfl (by decide)
    rfl).mpr ?_
  exact .inr (.inr (by decide))

/-- The first object fails and the last one does not: the first one is never looked at again. -/
theorem object_lost : ((system inbox).runWith (fun _ _ => True) ⟨waiting, []⟩
      [.poll (failing "a") twoObjects, .poll (failing "") twoObjects]).map (fun h =>
        h.polls.map fun poll => poll.map fun x => (x.1.key, x.2)) =
      some [[], [("a", .submissionFailed), ("b", .submitted)]] := by
  decide

end Formicary.S3Poller

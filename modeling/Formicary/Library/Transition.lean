import Mathlib

/-! # Labelled transition systems

Partial step functions, their runs, and the rule that an inductive invariant holds in every
reachable state. -/

/-- A transition system: the initial states, and what each action does where it is enabled. -/
structure TransitionSystem (σ ι : Type*) where
  init : σ → Prop
  step : σ → ι → Option σ

namespace TransitionSystem

variable {σ ι : Type*} (S : TransitionSystem σ ι)

/-- The states reached by runs all of whose steps satisfy `ok` where they are taken. -/
inductive ReachableWith (ok : σ → ι → Prop) : σ → Prop where
  | init {s} : S.init s → ReachableWith ok s
  | step {s a s'} : ReachableWith ok s → ok s a → S.step s a = some s' → ReachableWith ok s'

/-- The states reached by arbitrary runs. -/
abbrev Reachable : σ → Prop :=
  S.ReachableWith fun _ _ => True

/-- Performs a list of actions one after the other, as long as each is enabled and meets `ok`. -/
def runWith (ok : σ → ι → Prop) [∀ s a, Decidable (ok s a)] (s : σ) : List ι → Option σ
  | [] => some s
  | a :: as => if ok s a then (S.step s a).bind fun s' => runWith ok s' as else none

/-- The property holds in every state a list of actions leads through, up to the first one that
is not enabled. -/
def Along (p : σ → Prop) (s : σ) : List ι → Prop
  | [] => p s
  | a :: as => p s ∧ ∀ s' ∈ S.step s a, Along p s' as

/-- Every enabled action of the list meets the condition where it is taken. -/
def Meets (ok : σ → ι → Prop) (s : σ) : List ι → Prop
  | [] => True
  | a :: as => ∀ s' ∈ S.step s a, ok s a ∧ Meets ok s' as

instance decidableMeets (ok : σ → ι → Prop) [∀ s a, Decidable (ok s a)] (s : σ) :
    (as : List ι) → Decidable (S.Meets ok s as)
  | [] => inferInstanceAs (Decidable True)
  | a :: as =>
    have : ∀ s', Decidable (S.Meets ok s' as) := fun s' => decidableMeets ok s' as
    inferInstanceAs (Decidable (∀ s' ∈ S.step s a, ok s a ∧ S.Meets ok s' as))

instance decidableAlong (p : σ → Prop) [DecidablePred p] (s : σ) :
    (as : List ι) → Decidable (S.Along p s as)
  | [] => inferInstanceAs (Decidable (p s))
  | a :: as =>
    have : ∀ s', Decidable (S.Along p s' as) := fun s' => decidableAlong p s' as
    inferInstanceAs (Decidable (p s ∧ ∀ s' ∈ S.step s a, S.Along p s' as))

variable {S} {ok : σ → ι → Prop}

theorem meets_of_invariant {ok' : σ → ι → Prop} {I : σ → Prop}
    (hstep : ∀ s a s', I s → ok s a → S.step s a = some s' → ok' s a ∧ I s') {s : σ} (h : I s)
    {as : List ι} (hm : S.Meets ok s as) : S.Meets ok' s as := by
  induction as generalizing s with
  | nil => trivial
  | cons a as ih =>
    intro s' he
    obtain ⟨hok, htail⟩ := hm s' he
    obtain ⟨hok', hI⟩ := hstep s a s' h hok he
    exact ⟨hok', ih hI htail⟩

theorem meets_iff_meets {ok' : σ → ι → Prop} {I : σ → Prop}
    (hstep : ∀ s a s', I s → S.step s a = some s' → (ok s a ↔ ok' s a) ∧ (ok s a → I s'))
    {s : σ} (h : I s) {as : List ι} : S.Meets ok s as ↔ S.Meets ok' s as := by
  constructor <;> refine meets_of_invariant (fun s a s' h hok he => ?_) h <;>
    obtain ⟨hiff, hinv⟩ := hstep s a s' h he
  · exact ⟨hiff.mp hok, hinv hok⟩
  · exact ⟨hiff.mpr hok, hinv (hiff.mpr hok)⟩

theorem meets_congr {ok' : σ → ι → Prop} (h : ∀ s a, ok s a ↔ ok' s a) (s : σ) (as : List ι) :
    S.Meets ok s as ↔ S.Meets ok' s as :=
  meets_iff_meets (I := fun _ => True) (fun s a _ _ _ => ⟨h s a, fun _ => trivial⟩) trivial

theorem Along.head {p : σ → Prop} {s : σ} {as : List ι} (h : S.Along p s as) : p s := by
  cases as with
  | nil => exact h
  | cons => exact h.1

/-- What is preserved by the steps that meet a condition holds along the runs all of whose steps
meet it. -/
theorem along_of_meets {p I : σ → Prop} (hp : ∀ s, I s → p s)
    (hstep : ∀ s a s', I s → ok s a → S.step s a = some s' → I s') {s : σ} (h : I s)
    {as : List ι} (hm : S.Meets ok s as) : S.Along p s as := by
  induction as generalizing s with
  | nil => exact hp s h
  | cons a as ih =>
    refine ⟨hp s h, fun s' he => ?_⟩
    obtain ⟨hok, htail⟩ := hm s' he
    exact ih (hstep s a s' h hok he) htail

/-- What every step preserves holds along every run. -/
theorem along_of_step {p : σ → Prop} (hstep : ∀ s a s', p s → S.step s a = some s' → p s')
    {s : σ} (h : p s) (as : List ι) : S.Along p s as := by
  induction as generalizing s with
  | nil => exact h
  | cons a as ih => exact ⟨h, fun s' he => ih (hstep s a s' h he)⟩

theorem along_iff_meets {p I : σ → Prop} (hp : ∀ s, I s → p s)
    (hstep : ∀ s a s', I s → S.step s a = some s' → (p s' → ok s a) ∧ (ok s a → I s'))
    {s : σ} (h : I s) (as : List ι) : S.Along p s as ↔ S.Meets ok s as := by
  induction as generalizing s with
  | nil => simpa [Along, Meets] using hp s h
  | cons a as ih =>
    constructor
    · intro hal s' he
      have htail := hal.2 s' he
      have hok := (hstep s a s' h he).1 htail.head
      exact ⟨hok, (ih ((hstep s a s' h he).2 hok)).mp htail⟩
    · intro hm
      refine ⟨hp s h, fun s' he => ?_⟩
      have hok := (hm s' he).1
      exact (ih ((hstep s a s' h he).2 hok)).mpr (hm s' he).2

theorem along_iff_meets_of_iff {p : σ → Prop}
    (hstep : ∀ s a s', p s → S.step s a = some s' → (p s' ↔ ok s a)) {s : σ} (h : p s)
    (as : List ι) : S.Along p s as ↔ S.Meets ok s as :=
  along_iff_meets (fun _ h => h) (fun s a s' h he => iff_def.mp (hstep s a s' h he)) h as

theorem runWith_cons_eq_some [∀ s a, Decidable (ok s a)] {s s' : σ} {a : ι} {as : List ι} :
    S.runWith ok s (a :: as) = some s' ↔
      ok s a ∧ ∃ s₁, S.step s a = some s₁ ∧ S.runWith ok s₁ as = some s' := by
  rw [TransitionSystem.runWith]
  split
  · next hok => simp [hok, Option.bind_eq_some_iff]
  · next hok => simp [hok]

theorem along_iff_last {p I : σ → Prop} (hback : ∀ s a s', I s → S.step s a = some s' → p s' → p s)
    (hinv : ∀ s a s', I s → S.step s a = some s' → I s') {s s' : σ} (h : I s) {as : List ι}
    (hrun : S.runWith (fun _ _ => True) s as = some s') : S.Along p s as ↔ p s' := by
  induction as generalizing s with
  | nil =>
    cases hrun
    exact Iff.rfl
  | cons a as ih =>
    obtain ⟨-, s₁, hstep, hrest⟩ := runWith_cons_eq_some.mp hrun
    have hih := ih (hinv s a s₁ h hstep) hrest
    constructor
    · intro hal
      exact hih.mp (hal.2 s₁ hstep)
    intro hp
    have hal := hih.mpr hp
    refine ⟨hback s a s₁ h hstep hal.head, fun s₂ hs₂ => ?_⟩
    cases Option.some.inj (hstep.symm.trans hs₂)
    exact hal

variable (S) in
/-- From here on one party takes boundedly many steps, whatever the others do, and it can take one
as long as it has not come to its end. -/
def Halts (own : ι → Bool) (ended : σ → Prop) (s : σ) : Prop :=
  ∃ n, ∀ as s', S.runWith (fun _ _ => True) s as = some s' →
    as.countP own ≤ n ∧ (ended s' ∨ ∃ a, own a = true ∧ S.step s' a ≠ none)

theorem halts_of_measure {own : ι → Bool} {ended I : σ → Prop} (μ : σ → ℕ)
    (hstep : ∀ s a s', I s → S.step s a = some s' → I s' ∧ μ s' + (if own a then 1 else 0) ≤ μ s)
    (hgo : ∀ s, I s → ended s ∨ ∃ a, own a = true ∧ S.step s a ≠ none) {s : σ} (h : I s) :
    S.Halts own ended s := by
  refine ⟨μ s, fun as s' hrun => ?_⟩
  induction as generalizing s with
  | nil =>
    cases hrun
    exact ⟨Nat.zero_le _, hgo _ h⟩
  | cons a as ih =>
    obtain ⟨-, s₁, he, hrun⟩ := runWith_cons_eq_some.mp hrun
    obtain ⟨h₁, hle⟩ := hstep s a s₁ h he
    obtain ⟨hlen, hend⟩ := ih h₁ hrun
    refine ⟨?_, hend⟩
    rw [List.countP_cons]
    omega

theorem ReachableWith.invariant {I : σ → Prop} (hinit : ∀ s, S.init s → I s)
    (hstep : ∀ s a s', I s → ok s a → S.step s a = some s' → I s')
    {s : σ} (h : S.ReachableWith ok s) : I s := by
  induction h with
  | init hs => exact hinit _ hs
  | step _ hok he ih => exact hstep _ _ _ ih hok he

theorem ReachableWith.mono {ok' : σ → ι → Prop} {s : σ} (h : S.ReachableWith ok s)
    (hok : ∀ s a, ok s a → ok' s a) : S.ReachableWith ok' s := by
  induction h with
  | init hs => exact .init hs
  | step _ ha he ih => exact ih.step (hok _ _ ha) he

theorem runWith_append_eq_some [∀ s a, Decidable (ok s a)] {s s' : σ} {as bs : List ι} :
    S.runWith ok s (as ++ bs) = some s' ↔
      ∃ s₁, S.runWith ok s as = some s₁ ∧ S.runWith ok s₁ bs = some s' := by
  induction as generalizing s with
  | nil => simp [TransitionSystem.runWith]
  | cons a as ih =>
    rw [List.cons_append, runWith_cons_eq_some]
    constructor
    · rintro ⟨hok, s₁, hs, hrun⟩
      obtain ⟨s₂, has, hbs⟩ := ih.mp hrun
      exact ⟨s₂, runWith_cons_eq_some.mpr ⟨hok, s₁, hs, has⟩, hbs⟩
    · rintro ⟨s₂, hrun, hbs⟩
      obtain ⟨hok, s₁, hs, has⟩ := runWith_cons_eq_some.mp hrun
      exact ⟨hok, s₁, hs, ih.mpr ⟨s₂, has, hbs⟩⟩

theorem runWith_invariant [∀ s a, Decidable (ok s a)] {I : σ → Prop}
    (hstep : ∀ s a s', I s → ok s a → S.step s a = some s' → I s') {s s' : σ} {as : List ι}
    (h : I s) (he : S.runWith ok s as = some s') : I s' := by
  induction as generalizing s with
  | nil =>
    cases he
    exact h
  | cons a as ih =>
    obtain ⟨hok, s₁, h₁, h₂⟩ := runWith_cons_eq_some.mp he
    exact ih (hstep s a s₁ h hok h₁) h₂

theorem ReachableWith.runWith [∀ s a, Decidable (ok s a)] {s s' : σ} {as : List ι}
    (h : S.ReachableWith ok s) (he : S.runWith ok s as = some s') : S.ReachableWith ok s' :=
  runWith_invariant (fun _ _ _ => .step) h he

theorem exists_reachableWith (ok : σ → ι → Prop) [∀ s a, Decidable (ok s a)] {s : σ}
    (p : σ → Prop) (as : List ι) (hs : S.init s) (h : ∃ s' ∈ S.runWith ok s as, p s') :
    ∃ s', S.ReachableWith ok s' ∧ p s' := by
  obtain ⟨s', hrun, hp⟩ := h
  exact ⟨s', (ReachableWith.init hs).runWith hrun, hp⟩

end TransitionSystem

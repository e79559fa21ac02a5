import Mathlib

/-! # Streaming replacement of words

A scanner replaces the words of a dictionary in a stream of letters. -/

namespace Scanner

open List

variable {α : Type*} (S : List (List α))

/-- A proper beginning of a word. -/
def Live (p : List α) : Prop :=
  ∃ s ∈ S, p <+: s ∧ p ≠ s

instance [DecidableEq α] (p : List α) : Decidable (Live S p) :=
  inferInstanceAs (Decidable (∃ s ∈ S, p <+: s ∧ p ≠ s))

theorem Live.init {S : List (List α)} {p : List α} {a : α} (h : Live S (p ++ [a])) : Live S p := by
  obtain ⟨s, hs, hps, -⟩ := h
  refine ⟨s, hs, (prefix_append p [a]).trans hps, ?_⟩
  rintro rfl
  have hlen := hps.length_le
  simp only [length_append, length_singleton] at hlen
  omega

/-- A word that contains no other word. -/
def Minimal (s : List α) : Prop :=
  s ∈ S ∧ ∀ t ∈ S, t <:+: s → t = s

/-- No word occurs in a proper beginning of a word; and where such a beginning, after at least one
letter, ends in a beginning of a word without smaller words, the next letter of that word continues
it to a beginning of a word. -/
structure Separable : Prop where
  outside : ∀ s ∈ S, ∀ p, Live S p → ¬ s <:+: p
  resumes : ∀ s, Minimal S s → ∀ x u v c, x ≠ [] → Live S (x ++ u) → s = u ++ c :: v →
    ∃ t ∈ S, x ++ u ++ [c] <+: t

/-- No word occurs in the text. -/
def Clean (text : List α) : Prop :=
  ∀ s ∈ S, ¬ s <:+: text

/-- The text does not end in the beginning of a word without smaller words. -/
def Sealed (text : List α) : Prop :=
  ∀ s, Minimal S s → ∀ y, y ≠ [] → y <+: s → ¬ y <:+ text

variable {S}

theorem exists_minimal {s : List α} (hs : s ∈ S) : ∃ t, Minimal S t ∧ t <:+: s := by
  induction hn : s.length using Nat.strong_induction_on generalizing s with
  | h n ih =>
    by_cases hmin : ∀ t ∈ S, t <:+: s → t = s
    · exact ⟨s, ⟨hs, hmin⟩, infix_refl s⟩
    push Not at hmin
    obtain ⟨t, ht, hts, hne⟩ := hmin
    have hlt : t.length < s.length :=
      lt_of_le_of_ne hts.length_le fun he => hne (hts.eq_of_length he)
    obtain ⟨m, hm, hmt⟩ := ih t.length (hn ▸ hlt) ht rfl
    exact ⟨m, hm, hmt.trans hts⟩

theorem Clean.append {text w : List α} (h : Clean S text) (hsealed : Sealed S text)
    (hw : ∀ s, Minimal S s → ¬ s <:+: w) : Clean S (text ++ w) := by
  intro s hs hin
  obtain ⟨t, ht, hts⟩ := exists_minimal hs
  rcases infix_append_iff_ne_nil.mp (hts.trans hin) with hleft | hright | hacross
  · exact h t ht.1 hleft
  · exact hw t ht hright
  · obtain ⟨y, v, hy, -, rfl, hends, -⟩ := hacross
    exact hsealed _ ht y hy (prefix_append y v) hends

theorem Sealed.append {text w : List α} (h : Sealed S text) (hw : Sealed S w) :
    Sealed S (text ++ w) := by
  intro s hs y hy hbeg hends
  rcases suffix_or_suffix_of_suffix hends (suffix_append text w) with hle | ⟨y', rfl⟩
  · exact hw s hs y hy hbeg hle
  by_cases hy' : y' = []
  · subst hy'
    exact hw s hs _ hy hbeg (suffix_refl _)
  · have htext : y' <:+ text := suffix_append_self_iff.mp hends
    exact h s hs y' hy' ((prefix_append y' w).trans hbeg) htext

/-- A piece of text that can follow any other without completing a word. -/
structure Inert (S : List (List α)) (w : List α) : Prop where
  outside : ∀ s, Minimal S s → ¬ s <:+: w
  closed : Sealed S w

theorem inert_of_disjoint (hne : ∀ s ∈ S, s ≠ []) {w : List α} (hw : ∀ s ∈ S, ∀ a ∈ s, a ∉ w) :
    Inert S w := by
  have hmeet : ∀ s ∈ S, ∀ y, y ≠ [] → y <+: s → ¬ y <:+: w := by
    intro s hs y hy hbeg hin
    obtain ⟨a, ha⟩ := exists_mem_of_ne_nil y hy
    exact hw s hs a (hbeg.subset ha) (hin.subset ha)
  refine ⟨fun s hs => ?_, fun s hs y hy hbeg hends => ?_⟩
  · exact hmeet s hs.1 s (hne s hs.1) (prefix_refl s)
  · exact hmeet s hs.1 y hy hbeg hends.isInfix

theorem Separable.inert (h : Separable S) (hne : ∀ s ∈ S, s ≠ []) {p : List α} {c : α}
    (hp : p = [] ∨ Live S p) (hstop : ∀ t ∈ S, ¬ p ++ [c] <+: t) : Inert S (p ++ [c]) := by
  have hclos : Sealed S (p ++ [c]) := by
    intro s hs y hy hbeg hends
    rcases suffix_concat_iff.mp hends with rfl | ⟨u, rfl, x, rfl⟩
    · exact hy rfl
    by_cases hx : x = []
    · subst hx
      exact hstop s hs.1 hbeg
    obtain ⟨v, rfl⟩ := hbeg
    have hlive : Live S (x ++ u) := hp.resolve_left (by simp [hx])
    obtain ⟨t, ht, htp⟩ := h.resumes _ hs x u v c hx hlive (by simp)
    exact hstop t ht htp
  refine ⟨fun s hs hin => ?_, hclos⟩
  rcases infix_concat_iff.mp hin with hends | hin
  · exact hclos s hs s (hne s hs.1) (prefix_refl s) hends
  rcases hp with rfl | hlive
  · exact hne s hs.1 (infix_nil.mp hin)
  · exact h.outside s hs.1 p hlive hin

/-- What has been passed on, and what is held back. -/
structure State (α : Type*) where
  text : List α
  rest : List α

/-- At the end of the stream what is held back is passed on. -/
def State.finish (σ : State α) : List α :=
  σ.text ++ σ.rest

/-- The letters held back begin a word, and the text passed on completes none. -/
structure Inv (S : List (List α)) (σ : State α) : Prop where
  rest : σ.rest = [] ∨ Live S σ.rest
  clean : Clean S σ.text
  closed : Sealed S σ.text

theorem inv_empty (hne : ∀ s ∈ S, s ≠ []) : Inv S ⟨[], []⟩ := by
  refine ⟨.inl rfl, fun s hs hin => hne s hs (infix_nil.mp hin), ?_⟩
  exact fun s _ y hy _ hends => hy (suffix_nil.mp hends)

theorem Inv.clean_finish (h : Separable S) (hne : ∀ s ∈ S, s ≠ []) {σ : State α}
    (hσ : Inv S σ) : Clean S σ.finish := by
  refine hσ.clean.append hσ.closed fun s hs hin => ?_
  rcases hσ.rest with hrest | hlive
  · rw [hrest] at hin
    exact hne s hs.1 (infix_nil.mp hin)
  · exact h.outside s hs.1 _ hlive hin

section Runs

variable [DecidableEq α] (S) (mask : List α)

def push (σ : State α) (a : α) : State α :=
  if Live S (σ.rest ++ [a]) then ⟨σ.text, σ.rest ++ [a]⟩
  else if σ.rest ++ [a] ∈ S then ⟨σ.text ++ mask, []⟩
  else ⟨σ.text ++ (σ.rest ++ [a]), []⟩

def scan (σ : State α) (input : List α) : State α :=
  input.foldl (push S mask) σ

/-- What is passed on for a stretch of the input: the stretch, of which all but the last letter was
held back, or the mask for a word. -/
inductive Piece : List α → List α → Prop
  | kept {p : List α} (hp : p = [] ∨ Live S p) (a : α) : Piece (p ++ [a]) (p ++ [a])
  | masked {s : List α} (hs : s ∈ S) : Piece s mask

variable {S mask}

theorem push_cases (mask : List α) {σ : State α} (hσ : σ.rest = [] ∨ Live S σ.rest) (a : α) :
    (Live S (σ.rest ++ [a]) ∧ push S mask σ a = ⟨σ.text, σ.rest ++ [a]⟩) ∨
      ∃ w, Piece S mask (σ.rest ++ [a]) w ∧ push S mask σ a = ⟨σ.text ++ w, []⟩ := by
  unfold push
  split
  · next hlive => exact .inl ⟨hlive, rfl⟩
  split
  · next hword => exact .inr ⟨_, .masked hword, rfl⟩
  · exact .inr ⟨_, .kept hσ a, rfl⟩

theorem inv_push (h : Separable S) (hne : ∀ s ∈ S, s ≠ []) (hmask : ∀ s ∈ S, ∀ a ∈ s, a ∉ mask)
    {σ : State α} (hσ : Inv S σ) (a : α) : Inv S (push S mask σ a) := by
  have hpass : ∀ w, Inert S w → Inv S ⟨σ.text ++ w, []⟩ := fun w hw =>
    ⟨.inl rfl, hσ.clean.append hσ.closed hw.outside, hσ.closed.append hw.closed⟩
  unfold push
  split
  · next hlive => exact ⟨.inr hlive, hσ.clean, hσ.closed⟩
  next hlive =>
  split
  · exact hpass mask (inert_of_disjoint hne hmask)
  next hword =>
  refine hpass _ (h.inert hne hσ.rest fun t ht hp => ?_)
  by_cases he : σ.rest ++ [a] = t
  · exact hword (he ▸ ht)
  · exact hlive ⟨t, ht, hp, he⟩

theorem inv_scan (h : Separable S) (hne : ∀ s ∈ S, s ≠ []) (hmask : ∀ s ∈ S, ∀ a ∈ s, a ∉ mask)
    {σ : State α} (hσ : Inv S σ) (input : List α) : Inv S (scan S mask σ input) := by
  induction input generalizing σ with
  | nil => exact hσ
  | cons a input ih => exact ih (inv_push h hne hmask hσ a)

theorem scan_append (σ : State α) (xs ys : List α) :
    scan S mask σ (xs ++ ys) = scan S mask (scan S mask σ xs) ys :=
  foldl_append

theorem scan_of_live {p : List α} (text : List α) (hp : p = [] ∨ Live S p) :
    scan S mask ⟨text, []⟩ p = ⟨text, p⟩ := by
  induction p using reverseRecOn with
  | nil => rfl
  | append_singleton p a ih =>
    have hlive : Live S (p ++ [a]) := hp.resolve_left (by simp)
    rw [scan_append, ih (.inr hlive.init)]
    exact if_pos hlive

theorem finish_scan_of_clean {σ : State α} {input : List α} (h : Clean S (σ.rest ++ input)) :
    (scan S mask σ input).finish = σ.text ++ σ.rest ++ input := by
  induction input generalizing σ with
  | nil => simp [scan, State.finish]
  | cons a input ih =>
    have hsplit : σ.rest ++ a :: input = σ.rest ++ [a] ++ input := by simp
    rw [hsplit] at h
    show (scan S mask (push S mask σ a) input).finish = _
    unfold push
    split
    · rw [ih h]
      simp
    split
    · next hword => exact absurd (prefix_append _ input).isInfix (h _ hword)
    have hinput : Clean S ([] ++ input) := fun s hs hin =>
      h s hs (hin.trans (suffix_append _ input).isInfix)
    rw [ih hinput]
    simp

theorem separable_of_clean (mask : List α)
    (h : ∀ input, Clean S (scan S mask ⟨[], []⟩ input).finish) : Separable S := by
  constructor
  · intro s hs p hp hin
    apply h p s hs
    rw [scan_of_live [] (.inr hp)]
    exact hin
  · intro s hs x u v c hx hlive hsplit
    by_contra hstop
    push Not at hstop
    have hpush : push S mask ⟨[], x ++ u⟩ c = ⟨x ++ u ++ [c], []⟩ := by
      have hnot : ¬ Live S (x ++ u ++ [c]) := fun ⟨t, ht, hp, _⟩ => hstop t ht hp
      have hword : x ++ u ++ [c] ∉ S := fun hw => hstop _ hw (prefix_refl _)
      simp only [push, hnot, hword, if_false, nil_append]
    have hrest : Clean S ([] ++ v) := by
      intro t ht hin
      have hle : t <:+: s := hin.trans (by
        rw [hsplit]
        exact ((suffix_cons c v).trans (suffix_append u _)).isInfix)
      have hts := hs.2 t ht hle
      have hlen := hin.length_le
      rw [hts, hsplit] at hlen
      simp at hlen
      omega
    have hfin : (scan S mask ⟨[], []⟩ (x ++ u ++ c :: v)).finish = x ++ u ++ [c] ++ v := by
      rw [scan_append, scan_of_live [] (.inr hlive)]
      show (scan S mask (push S mask ⟨[], x ++ u⟩ c) v).finish = _
      rw [hpush, finish_scan_of_clean hrest]
      simp
    apply h (x ++ u ++ c :: v) s hs.1
    rw [hfin, hsplit]
    exact ⟨x, [], by simp⟩

end Runs

end Scanner

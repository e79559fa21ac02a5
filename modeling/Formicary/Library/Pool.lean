import Mathlib

/-! # Pools

A pool is a list of goroutines or of messages under way. -/

namespace Pool

open List

variable {α κ : Type*} {l : List α} {i : ℕ} {x y : α} {P : α → Prop}

theorem mem_of_get (h : l[i]? = some x) : x ∈ l := mem_of_getElem? h

theorem forall_set (h : ∀ y ∈ l, P y) (hx : P x) : ∀ y ∈ l.set i x, P y := by
  intro y hy
  rcases mem_or_eq_of_mem_set hy with hy | rfl
  · exact h y hy
  · exact hx

theorem forall_eraseIdx (h : ∀ y ∈ l, P y) : ∀ y ∈ l.eraseIdx i, P y :=
  fun y hy => h y (mem_of_mem_eraseIdx hy)

theorem eq_or_mem_eraseIdx (hget : l[i]? = some x) (hy : y ∈ l) : y = x ∨ y ∈ l.eraseIdx i := by
  obtain ⟨j, hj, rfl⟩ := List.mem_iff_getElem.mp hy
  obtain ⟨hi, rfl⟩ := List.getElem?_eq_some_iff.mp hget
  by_cases hij : j = i
  · subst hij
    exact .inl rfl
  · exact .inr (List.mem_eraseIdx_iff_getElem.mpr ⟨j, hj, hij, rfl⟩)

theorem ne_of_mem_eraseIdx {f : α → κ} (hnodup : (l.map f).Nodup) (hget : l[i]? = some x)
    (hy : y ∈ l.eraseIdx i) : f y ≠ f x := by
  induction l generalizing i with
  | nil => cases hy
  | cons z zs ih =>
    obtain ⟨hz, hzs⟩ := nodup_cons.mp hnodup
    cases i with
    | zero =>
      cases hget
      intro heq
      exact hz (heq ▸ mem_map_of_mem hy)
    | succ =>
      rcases mem_cons.mp hy with rfl | hy
      · intro heq
        exact hz (heq ▸ mem_map_of_mem (mem_of_get hget))
      · exact ih hzs hget hy

theorem map_set {f : α → κ} (hget : l[i]? = some x) (h : f y = f x) :
    (l.set i y).map f = l.map f := by
  induction l generalizing i with
  | nil => rfl
  | cons z zs ih =>
    cases i with
    | zero =>
      cases hget
      simp [h]
    | succ => simp [ih hget]

theorem countP_eraseIdx (p : α → Bool) (hget : l[i]? = some x) :
    (l.eraseIdx i).countP p + (if p x then 1 else 0) = l.countP p := by
  induction l generalizing i with
  | nil => cases hget
  | cons z zs ih =>
    cases i with
    | zero =>
      cases hget
      rw [eraseIdx_cons_zero, countP_cons]
    | succ =>
      have hzs := ih hget
      rw [eraseIdx_cons_succ, countP_cons, countP_cons]
      omega

end Pool

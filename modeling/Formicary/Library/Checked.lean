import Mathlib

/-! # Lists under a fallible function

What the success of a check over a whole list says about its elements. -/

namespace Checked

open List

universe u

variable {ε : Type*} {α β σ : Type u} {f : α → Except ε β}

theorem bind_eq_ok {x : Except ε α} {b : β} : x >>= f = .ok b ↔ ∃ a, x = .ok a ∧ f a = .ok b := by
  cases x with
  | error | ok => simp [bind, Except.bind]

theorem toOption_eq_some {x : Except ε α} {a : α} : x.toOption = some a ↔ x = .ok a := by
  cases x <;> simp [Except.toOption]

theorem seq_eq_ok {x : Except ε PUnit} {y : Except ε β} {b : β} :
    (x >>= fun _ => y) = .ok b ↔ x = .ok ⟨⟩ ∧ y = .ok b := by
  rw [bind_eq_ok]
  constructor
  · rintro ⟨_, hx, hy⟩
    exact ⟨hx, hy⟩
  · rintro ⟨hx, hy⟩
    exact ⟨_, hx, hy⟩

variable {xs : List α}

theorem forM_eq_ok {f : α → Except ε PUnit} : xs.forM f = .ok ⟨⟩ ↔ ∀ x ∈ xs, f x = .ok ⟨⟩ := by
  induction xs with
  | nil => simp [List.forM, pure, Except.pure]
  | cons x xs ih =>
    change (f x >>= fun _ => xs.forM f) = _ ↔ _
    rw [seq_eq_ok, forall_mem_cons, ih]

theorem mem_mapM {ys : List β} (h : xs.mapM f = .ok ys)
    {y : β} : y ∈ ys ↔ ∃ x ∈ xs, f x = .ok y := by
  induction xs generalizing ys with
  | nil =>
    cases h
    simp
  | cons x xs ih =>
    rw [mapM_cons] at h
    obtain ⟨z, hz, h⟩ := bind_eq_ok.mp h
    obtain ⟨zs, hzs, h⟩ := bind_eq_ok.mp h
    cases h
    simp only [mem_cons, ih hzs, exists_eq_or_imp, hz, Except.ok.injEq]
    exact or_congr_left eq_comm

theorem map_eq_of_mapM {γ : Type*} {g : α → γ} {g' : β → γ}
    (hf : ∀ x y, f x = .ok y → g' y = g x) {ys : List β}
    (h : xs.mapM f = .ok ys) : ys.map g' = xs.map g := by
  induction xs generalizing ys with
  | nil =>
    cases h
    rfl
  | cons x xs ih =>
    rw [mapM_cons] at h
    obtain ⟨z, hz, h⟩ := bind_eq_ok.mp h
    obtain ⟨zs, hzs, h⟩ := bind_eq_ok.mp h
    cases h
    rw [map_cons, map_cons, hf x z hz, ih hzs]

theorem exists_mapM : (∃ ys, xs.mapM f = .ok ys) ↔ ∀ x ∈ xs, ∃ y, f x = .ok y := by
  induction xs with
  | nil => exact ⟨fun _ _ h => absurd h not_mem_nil, fun _ => ⟨[], rfl⟩⟩
  | cons x xs ih =>
    rw [forall_mem_cons, ← ih]
    constructor
    · rintro ⟨ys, h⟩
      rw [mapM_cons] at h
      obtain ⟨z, hz, h⟩ := bind_eq_ok.mp h
      obtain ⟨zs, hzs, _⟩ := bind_eq_ok.mp h
      exact ⟨⟨z, hz⟩, zs, hzs⟩
    · rintro ⟨⟨z, hz⟩, zs, hzs⟩
      refine ⟨z :: zs, ?_⟩
      rw [mapM_cons]
      exact bind_eq_ok.mpr ⟨z, hz, bind_eq_ok.mpr ⟨zs, hzs, rfl⟩⟩

theorem foldlM_invariant {f : σ → α → Except ε σ} {P : List α → σ → Prop} {s s' : σ}
    (hinit : P [] s)
    (hstep : ∀ seen s x s', P seen s → f s x = .ok s' → P (seen ++ [x]) s')
    (h : xs.foldlM f s = .ok s') : P xs s' := by
  suffices hgen : ∀ seen s, P seen s → xs.foldlM f s = .ok s' → P (seen ++ xs) s' from
    hgen [] s hinit h
  clear hinit h s
  induction xs with
  | nil =>
    intro seen s hP h
    cases h
    simpa using hP
  | cons x xs ih =>
    intro seen s hP h
    obtain ⟨t, ht, h⟩ := bind_eq_ok.mp h
    simpa using ih (seen ++ [x]) t (hstep seen s x t hP ht) h

end Checked

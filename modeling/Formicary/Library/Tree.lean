import Mathlib

/-! # Trees by parents

Finite sets in which every element but the root has its parent one level above it. -/

open Finset

/-- A finite set with one element at level zero, in which parents are one level above. -/
structure IsTree {α : Type*} [DecidableEq α] (s : Finset α) (level : α → ℕ) (parent : α → α) :
    Prop where
  root : #{x ∈ s | level x = 0} ≤ 1
  parent_mem : ∀ x ∈ s, level x ≠ 0 → parent x ∈ s
  level_parent : ∀ x ∈ s, level x ≠ 0 → level (parent x) + 1 = level x

namespace IsTree

variable {α : Type*} [DecidableEq α] {s : Finset α} {level : α → ℕ} {parent : α → α} {b d : ℕ}

section

variable (h : IsTree s level parent) (hb : ∀ y ∈ s, #{x ∈ s | level x ≠ 0 ∧ parent x = y} ≤ b)
include h hb

theorem card_level_le (k : ℕ) : #{x ∈ s | level x = k} ≤ b ^ k := by
  induction k with
  | zero => simpa using h.root
  | succ k ih =>
    -- the elements of a level are the children of those of the level above
    have hchildren : #{x ∈ s | level x = k + 1} ≤ b * #{x ∈ s | level x = k} := by
      refine card_le_mul_card_image_of_maps_to (f := parent) (fun x hx => ?_) b fun y hy => ?_
      · obtain ⟨hx, hlevel⟩ := mem_filter.mp hx
        have hne : level x ≠ 0 := by omega
        have hpar := h.level_parent x hx hne
        exact mem_filter.mpr ⟨h.parent_mem x hx hne, by omega⟩
      · refine le_trans (card_le_card fun x hx => ?_) (hb y (mem_filter.mp hy).1)
        obtain ⟨hx, hpar⟩ := mem_filter.mp hx
        obtain ⟨hx, hlevel⟩ := mem_filter.mp hx
        exact mem_filter.mpr ⟨hx, by omega, hpar⟩
    calc #{x ∈ s | level x = k + 1} ≤ b * #{x ∈ s | level x = k} := hchildren
      _ ≤ b * b ^ k := Nat.mul_le_mul_left b ih
      _ = b ^ (k + 1) := (pow_succ' b k).symm

theorem card_le (hd : ∀ x ∈ s, level x ≤ d) : #s ≤ ∑ k ∈ range (d + 1), b ^ k := by
  have hlevels : ∀ x ∈ s, level x ∈ range (d + 1) := by
    intro x hx
    have hlevel := hd x hx
    exact mem_range.mpr (by omega)
  rw [card_eq_sum_card_fiberwise hlevels]
  exact sum_le_sum fun k _ => h.card_level_le hb k

end

end IsTree

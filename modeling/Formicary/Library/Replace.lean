import Mathlib

/-! # Replacing a word in a text

All occurrences of a word are replaced from left to right, where they do not overlap. -/

namespace Replace

open List

variable {α : Type*}

/-- Puts the new word before every letter and at the end. -/
def everywhere (new : List α) : List α → List α
  | [] => new
  | a :: text => new ++ a :: everywhere new text

variable [DecidableEq α] (old new : List α)

/-- Replaces the word, after skipping the letters that are left of its last occurrence. -/
def replaceFrom : ℕ → List α → List α
  | _, [] => []
  | skip + 1, _ :: text => replaceFrom skip text
  | 0, a :: text =>
    if old <+: a :: text then new ++ replaceFrom (old.length - 1) text
    else a :: replaceFrom 0 text

/-- The empty word occurs everywhere. -/
def replaceAll (text : List α) : List α :=
  if old = [] then everywhere new text else replaceFrom old new 0 text

variable {text : List α}

theorem replaceAll_ne_nil {new : List α} (hnew : new ≠ []) (htext : text ≠ []) :
    replaceAll old new text ≠ [] := by
  cases text with
  | nil => exact absurd rfl htext
  | cons =>
    unfold replaceAll
    split
    · simp [everywhere]
    rw [replaceFrom]
    split
    · simp [hnew]
    · exact cons_ne_nil _ _

end Replace

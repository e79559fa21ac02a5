import Mathlib

/-! # Finite maps

Association lists without duplicate keys, as a model of hash maps: what an update does to each
lookup, and maps over all values. -/

abbrev FinMap (κ β : Type*) := AList fun _ : κ => β

namespace FinMap

open AList

variable {κ β γ : Type*}

/-- The number of keys. -/
def size (m : FinMap κ β) : ℕ := m.entries.length

def values (m : FinMap κ β) : List β := m.entries.map Sigma.snd

/-- Applies a function to every value. -/
def mapValues (f : κ → β → γ) (m : FinMap κ β) : FinMap κ γ where
  entries := m.entries.map fun e => ⟨e.1, f e.1 e.2⟩
  nodupKeys := by
    have hkeys : (m.entries.map fun e => (⟨e.1, f e.1 e.2⟩ : Sigma fun _ : κ => γ)).keys =
        m.entries.keys := by
      simp [List.keys]
    rw [List.NodupKeys, hkeys]
    exact m.nodupKeys

variable [DecidableEq κ] {m : FinMap κ β} {k k' : κ} {b : β}

theorem lookup_insert_eq : (m.insert k b).lookup k' = if k' = k then some b else m.lookup k' := by
  split
  · next h => rw [h, lookup_insert]
  · next h => rw [lookup_insert_ne h]

theorem lookup_erase_eq : (m.erase k).lookup k' = if k' = k then none else m.lookup k' := by
  split
  · next h => rw [h, lookup_erase]
  · next h => rw [lookup_erase_ne h]

theorem lookup_of_size_eq_zero (h : m.size = 0) : m.lookup k = none := by
  have hent : m.entries = [] := List.length_eq_zero_iff.mp h
  rw [lookup, hent, List.dlookup_nil]

theorem size_insert_le : size (m.insert k b) ≤ m.size + 1 := by
  rw [size, entries_insert, List.length_cons]
  exact Nat.succ_le_succ (List.kerase_sublist k m.entries).length_le

theorem size_erase_le : size (m.erase k) ≤ m.size :=
  (List.kerase_sublist k m.entries).length_le

omit [DecidableEq κ] in
theorem size_eq_length_keys (m : FinMap κ β) : m.size = m.keys.length := by
  rw [size, keys, List.keys, List.length_map]

omit [DecidableEq κ] in
theorem size_eq_of_mem_iff {m' : FinMap κ γ} (h : ∀ k, k ∈ m' ↔ k ∈ m) : m'.size = m.size := by
  rw [size_eq_length_keys, size_eq_length_keys]
  refine ((List.perm_ext_iff_of_nodup m'.keys_nodup m.keys_nodup).mpr fun k => ?_).length_eq
  rw [← mem_keys, ← mem_keys]
  exact h k

theorem size_erase_add (m : FinMap κ β) (k : κ) :
    size (m.erase k) + (if k ∈ m then 1 else 0) = m.size := by
  rw [size_eq_length_keys, size_eq_length_keys, keys_erase]
  split
  · next hk =>
    have hmem : k ∈ m.keys := mem_keys.mp hk
    rw [List.length_erase_of_mem hmem]
    exact Nat.succ_pred_eq_of_pos (List.length_pos_of_mem hmem)
  · next hk =>
    rw [List.erase_of_not_mem fun hmem => hk (mem_keys.mpr hmem)]
    rfl

theorem size_add_of_mem_iff {m' : FinMap κ β} (h : ∀ k', k' ≠ k → (k' ∈ m' ↔ k' ∈ m)) :
    m'.size + (if k ∈ m then 1 else 0) = m.size + if k ∈ m' then 1 else 0 := by
  have herase : size (m'.erase k) = size (m.erase k) := by
    refine size_eq_of_mem_iff fun k' => ?_
    rw [mem_erase, mem_erase]
    exact and_congr_right (h k')
  have hm := size_erase_add m k
  have hm' := size_erase_add m' k
  omega

theorem lookup_eq_some_iff_mem : m.lookup k = some b ↔ ⟨k, b⟩ ∈ m.entries :=
  mem_lookup_iff

theorem lookup_mapValues (f : κ → β → γ) : (m.mapValues f).lookup k = (m.lookup k).map (f k) := by
  unfold lookup mapValues
  dsimp only
  induction m.entries with
  | nil => rfl
  | cons e entries ih =>
    obtain ⟨k', b⟩ := e
    by_cases h : k = k'
    · subst h
      simp [List.dlookup_cons_eq]
    · simp [List.dlookup_cons_ne, h, ih]

theorem sum_values_mapValues {f : κ → β → β} {g d : β → ℕ} (hk : ∀ b, g (f k b) + d b = g b)
    (hother : ∀ k' b, k' ≠ k → g (f k' b) = g b) :
    (m.values.map g).sum = ((m.mapValues f).values.map g).sum + (m.lookup k).elim 0 d := by
  obtain ⟨entries, hnodup⟩ := m
  unfold values mapValues lookup
  dsimp only
  induction entries with
  | nil => rfl
  | cons e entries ih =>
    obtain ⟨k', b⟩ := e
    have hrest := ih (List.nodupKeys_cons.mp hnodup).2
    simp only [List.map_cons, List.sum_cons]
    by_cases h : k' = k
    · subst h
      have hnone : entries.dlookup k' = none :=
        List.dlookup_eq_none.mpr (List.nodupKeys_cons.mp hnodup).1
      rw [hnone, Option.elim_none] at hrest
      rw [List.dlookup_cons_eq, Option.elim_some]
      have hb := hk b
      omega
    · rw [List.dlookup_cons_ne _ _ (Ne.symm h)]
      have hb := hother k' b h
      omega

end FinMap

/-- Finite sets as maps. -/
abbrev FinSet (κ : Type*) := FinMap κ Unit

import Mathlib

/-! # Keyed tables

A relational table is a list of rows no two of which share a primary key. -/

/-- Rows with pairwise distinct primary keys. -/
@[ext]
structure Table {α κ : Type*} (key : α → κ) where
  rows : List α
  nodup : (rows.map key).Nodup

namespace Table

open List

variable {α κ : Type*} {key : α → κ}

instance : Membership α (Table key) := ⟨fun t a => a ∈ t.rows⟩

instance (t : Table key) (p : α → Prop) [DecidablePred p] : Decidable (∀ a ∈ t, p a) :=
  inferInstanceAs (Decidable (∀ a ∈ t.rows, p a))

variable {t : Table key} {a : α}

theorem mem_rows : a ∈ t.rows ↔ a ∈ t := Iff.rfl

theorem eq_of_key_eq {b : α} (ha : a ∈ t) (hb : b ∈ t) (h : key a = key b) : a = b :=
  inj_on_of_nodup_map t.nodup ha hb h

/-- The table without rows. -/
def empty : Table key := ⟨[], List.nodup_nil⟩

/-- Lookup by primary key. -/
def find? [DecidableEq κ] (t : Table key) (k : κ) : Option α :=
  t.rows.find? fun a => decide (key a = k)

/-- `SELECT … WHERE p ORDER BY key LIMIT 1`. -/
def first? [LT κ] [DecidableLT κ] (t : Table key) (p : α → Bool) : Option α :=
  t.rows.foldl (fun best a =>
    if p a then
      match best with
      | none => some a
      | some b => if key a < key b then some a else best
    else best) none

/-- The number of rows a condition selects. -/
def affected (t : Table key) (p : α → Bool) : ℕ :=
  t.rows.countP p

/-- `UPDATE … SET f WHERE p`, for an assignment that leaves the primary key alone. -/
def update (t : Table key) (p : α → Bool) (f : α → α) (hf : ∀ a, key (f a) = key a) :
    Table key where
  rows := t.rows.map fun a => if p a then f a else a
  nodup := by
    have hkey : (t.rows.map fun a => if p a then f a else a).map key = t.rows.map key := by
      rw [List.map_map]
      refine List.map_congr_left fun a _ => ?_
      by_cases h : p a <;> simp [h, hf]
    rw [hkey]
    exact t.nodup

/-- An update that is rolled back unless it touched exactly one row. -/
def updateOne? (t : Table key) (p : α → Bool) (f : α → α) (hf : ∀ a, key (f a) = key a) :
    Option (Table key) :=
  if t.affected p = 1 then some (t.update p f hf) else none

/-- `INSERT`, which the primary key constraint refuses for a key already present. -/
def insert? [DecidableEq κ] (t : Table key) (a : α) : Option (Table key) :=
  if h : key a ∈ t.rows.map key then none
  else some ⟨a :: t.rows, List.nodup_cons.mpr ⟨h, t.nodup⟩⟩

/-- `DELETE … WHERE p`. -/
def deleteWhere (t : Table key) (p : α → Bool) : Table key where
  rows := t.rows.filter fun a => !p a
  nodup := t.nodup.sublist (List.filter_sublist.map key)

variable {k : κ}

theorem find?_eq_some_iff [DecidableEq κ] : t.find? k = some a ↔ a ∈ t ∧ key a = k := by
  constructor
  · intro h
    exact ⟨mem_of_find?_eq_some h, by simpa using find?_some h⟩
  rintro ⟨ha, rfl⟩
  obtain ⟨b, hb⟩ := Option.isSome_iff_exists.mp (find?_isSome.mpr ⟨a, ha, by simp⟩ :
      (t.rows.find? fun b => decide (key b = key a)).isSome)
  have hba : b = a :=
    eq_of_key_eq (mem_of_find?_eq_some hb) ha (by simpa using find?_some hb)
  rw [find?, hb, hba]

theorem find?_eq_none_iff [DecidableEq κ] : t.find? k = none ↔ ∀ a ∈ t, key a ≠ k := by
  simp [find?, mem_rows]

section First

variable [LT κ] [DecidableLT κ] {t : Table key} {p : α → Bool}

/-- The row that is kept so far either stays or gives way to a later one. -/
theorem first?_fold (rows : List α) (best : Option α) :
    let first := rows.foldl (fun best a =>
      if p a then
        match best with
        | none => some a
        | some b => if key a < key b then some a else best
      else best) best
    (∀ a, first = some a → best = some a ∨ a ∈ rows ∧ p a = true) ∧
      (first = none ↔ best = none ∧ ∀ a ∈ rows, p a = false) := by
  induction rows generalizing best with
  | nil => simp
  | cons b rows ih =>
    rw [foldl_cons]
    refine ⟨fun a ha => ?_, (ih _).2.trans ?_⟩
    · rcases (ih _).1 a ha with hkept | hlater
      · clear ih ha
        cases best <;> grind
      · exact .inr ⟨mem_cons_of_mem b hlater.1, hlater.2⟩
    · clear ih
      cases best <;> grind

theorem first?_eq_some (h : t.first? p = some a) : a ∈ t ∧ p a = true := by
  rcases (first?_fold t.rows none).1 a h with hnone | hmem
  · cases hnone
  · exact hmem

theorem first?_eq_none_iff : t.first? p = none ↔ ∀ a ∈ t, p a = false :=
  (first?_fold t.rows none).2.trans (and_iff_right rfl)

end First

section Update

variable {t t' : Table key} {p : α → Bool} {f : α → α} {hf : ∀ a, key (f a) = key a} {a : α}

theorem mem_update : a ∈ t.update p f hf ↔ ∃ b ∈ t, (if p b then f b else b) = a :=
  mem_map

theorem mem_update_of_unselected {Q : α → Prop} (hf : ∀ a, key (f a) = key a)
    (hp : ∀ b ∈ t, Q b → p b = false) (hq : ∀ b, Q (f b) → Q b) (ha : Q a) :
    a ∈ t.update p f hf ↔ a ∈ t := by
  rw [mem_update]
  constructor
  · rintro ⟨b, hb, rfl⟩
    cases hpb : p b with
    | false => simpa [hpb] using hb
    | true =>
      simp only [hpb, if_true] at ha
      exact absurd (hp b hb (hq b ha)) (by simp [hpb])
  · intro hmem
    exact ⟨a, hmem, by simp [hp a hmem ha]⟩

theorem find?_update [DecidableEq κ] (k : κ) :
    (t.update p f hf).find? k = (t.find? k).map fun a => if p a then f a else a := by
  have hkey : ((fun a => decide (key a = k)) ∘ fun a => if p a then f a else a) =
      fun a => decide (key a = k) := by
    funext a
    by_cases h : p a <;> simp [h, hf]
  rw [find?, find?, update, find?_map, hkey]

theorem find?_update_of_pos [DecidableEq κ] (h : t.find? k = some a) (hp : p a = true)
    (hf : ∀ a, key (f a) = key a := by intro; rfl) : (t.update p f hf).find? k = some (f a) := by
  simp [find?_update, h, hp]

theorem find?_update_of_neg [DecidableEq κ] (h : t.find? k = some a) (hp : p a = false)
    (hf : ∀ a, key (f a) = key a := by intro; rfl) : (t.update p f hf).find? k = some a := by
  simp [find?_update, h, hp]

theorem find?_update_of_unselected [DecidableEq κ] (hp : ∀ b ∈ t, key b = k → p b = false)
    (hf : ∀ a, key (f a) = key a := by intro; rfl) : (t.update p f hf).find? k = t.find? k := by
  rw [find?_update]
  cases hfind : t.find? k with
  | none => rfl
  | some b =>
    obtain ⟨hb, hk⟩ := find?_eq_some_iff.mp hfind
    simp [hp b hb hk]

theorem filter_update_of_unselected {q : α → Bool} (hf : ∀ a, key (f a) = key a)
    (hp : ∀ b ∈ t, q b = true → p b = false) (hq : ∀ b, q (f b) = false) :
    (t.update p f hf).rows.filter q = t.rows.filter q := by
  have hclass : ∀ b ∈ t.rows, (q ∘ fun b => if p b then f b else b) b = q b := by
    intro b hb
    cases hpb : p b with
    | false => simp [hpb]
    | true =>
      cases hqb : q b with
      | false => simp [hpb, hq]
      | true => simp [hp b hb hqb] at hpb
  have hsame : ∀ b ∈ t.rows.filter q, (if p b then f b else b) = b := by
    intro b hb
    obtain ⟨hb, hqb⟩ := mem_filter.mp hb
    rw [hp b hb hqb]
    rfl
  rw [update, filter_map, filter_congr hclass]
  exact (map_congr_left hsame).trans (map_id _)

theorem affected_pos_iff : 0 < t.affected p ↔ ∃ a ∈ t, p a = true :=
  countP_pos_iff

theorem updateOne?_eq_some_iff :
    t.updateOne? p f hf = some t' ↔ t.affected p = 1 ∧ t' = t.update p f hf := by
  unfold updateOne?
  split <;> simp_all [eq_comm]

theorem affected_le_length {l : List κ} (hp : ∀ a ∈ t, p a = true → key a ∈ l) :
    t.affected p ≤ l.length := by
  have hnodup : ((t.rows.filter p).map key).Nodup :=
    t.nodup.sublist (filter_sublist.map key)
  have hsub : (t.rows.filter p).map key ⊆ l := by
    intro k hk
    obtain ⟨a, ha, rfl⟩ := mem_map.mp hk
    obtain ⟨hmem, hsel⟩ := mem_filter.mp ha
    exact hp a hmem hsel
  have hle := (subperm_of_subset hnodup hsub).length_le
  rwa [length_map, ← countP_eq_length_filter] at hle

theorem affected_le_one (hp : ∀ a ∈ t, p a = true → key a = k) : t.affected p ≤ 1 :=
  affected_le_length (l := [k]) fun a ha hpa => mem_singleton.mpr (hp a ha hpa)

/-- The rows that are selected, with one key and with the others. -/
theorem affected_split [DecidableEq κ] (t : Table key) (p : α → Bool) (k : κ) :
    t.affected p = t.affected (fun a => p a && decide (key a = k)) +
      t.affected fun a => p a && decide (key a ≠ k) := by
  unfold affected
  rw [countP_eq_countP_filter_add t.rows p fun a => decide (key a = k)]
  simp [countP_filter]

theorem affected_key_le_one [DecidableEq κ] (k : κ) :
    t.affected (fun a => p a && decide (key a = k)) ≤ 1 :=
  affected_le_one fun _ _ hsel => of_decide_eq_true (Bool.and_eq_true_iff.mp hsel).2

theorem affected_key [DecidableEq κ] (ha : a ∈ t) :
    t.affected (fun b => p b && decide (key b = key a)) = (p a).toNat := by
  have hle := affected_key_le_one (t := t) (p := p) (key a)
  cases hpa : p a with
  | true => exact Nat.le_antisymm hle (affected_pos_iff.mpr ⟨a, ha, by simp [hpa]⟩)
  | false =>
    refine countP_eq_zero.mpr fun b hb hsel => ?_
    obtain ⟨hpb, hk⟩ := Bool.and_eq_true_iff.mp hsel
    rw [eq_of_key_eq hb ha (of_decide_eq_true hk), hpa] at hpb
    cases hpb

theorem updateOne?_isSome_of_mem (hp : ∀ a, p a = true → key a = k) (ha : a ∈ t)
    (hpa : p a = true) : t.updateOne? p f hf = some (t.update p f hf) := by
  have hpos : 0 < t.affected p := affected_pos_iff.mpr ⟨a, ha, hpa⟩
  have hle := affected_le_one (t := t) fun a _ => hp a
  exact updateOne?_eq_some_iff.mpr ⟨by omega, rfl⟩

theorem exists_of_updateOne? (h : t.updateOne? p f hf = some t') : ∃ a ∈ t, p a = true := by
  have h1 := (updateOne?_eq_some_iff.mp h).1
  exact affected_pos_iff.mp (by omega)

theorem update_eq_self (hp : ∀ b ∈ t, p b = false) : t.update p f hf = t := by
  ext1
  have hid : ∀ b ∈ t.rows, (if p b then f b else b) = b := fun b hb => by simp [hp b hb]
  exact (map_congr_left hid).trans (map_id _)

theorem not_selected_of_updateOne? (hp : ∀ b, p b = true → key b = k)
    (h : t.updateOne? p f hf = none) : ∀ b ∈ t, p b = false := by
  intro b hb
  by_contra hpb
  have hsome : t.updateOne? p f hf = some (t.update p f hf) :=
    updateOne?_isSome_of_mem hp hb (by simpa using hpb)
  exact Option.some_ne_none _ (hsome.symm.trans h)

theorem updateOne?_eq_none (hp : ∀ b ∈ t, p b = false) : t.updateOne? p f hf = none := by
  have hzero : t.affected p = 0 := countP_eq_zero.mpr fun b hb => by simp [hp b hb]
  simp [updateOne?, hzero]

end Update

section Set

variable [DecidableEq κ] {t : Table key} {p q : α → Bool} {f : α → α} {a a' b : α}

/-- Puts a row in the place of the one that has its key. -/
def set (t : Table key) (a : α) : Table key where
  rows := t.rows.map fun b => if key b = key a then a else b
  nodup := by
    have hkey : (t.rows.map fun b => if key b = key a then a else b).map key = t.rows.map key := by
      rw [List.map_map]
      refine List.map_congr_left fun b _ => ?_
      by_cases h : key b = key a <;> simp [h]
    rw [hkey]
    exact t.nodup

theorem mem_set (ha : a ∈ t) (hk : key a' = key a) :
    b ∈ t.set a' ↔ b = a' ∨ b ∈ t ∧ key b ≠ key a := by
  constructor
  · intro hb
    obtain ⟨c, hc, rfl⟩ := mem_map.mp hb
    by_cases h : key c = key a'
    · simp [h]
    rw [if_neg h]
    exact .inr ⟨hc, hk ▸ h⟩
  · rintro (rfl | ⟨hb, hne⟩)
    · exact mem_map.mpr ⟨a, ha, by simp [hk]⟩
    · exact mem_map.mpr ⟨b, hb, by simp [hk, hne]⟩

theorem set_self (ha : a ∈ t) : t.set a = t := by
  ext1
  have hid : ∀ b ∈ t.rows, (if key b = key a then a else b) = b := by
    intro b hb
    split
    · next h => exact eq_of_key_eq ha hb h.symm
    · rfl
  exact (map_congr_left hid).trans (map_id _)

theorem set_set (hk : key a' = key a) : (t.set a).set a' = t.set a' := by
  ext1
  change ((t.rows.map fun b => if key b = key a then a else b).map
    fun b => if key b = key a' then a' else b) =
      t.rows.map fun b => if key b = key a' then a' else b
  rw [map_map]
  refine map_congr_left fun b _ => ?_
  by_cases h : key b = key a <;> simp [h, hk]

theorem find?_set (ha : a ∈ t) (hk : key a' = key a) (k : κ) :
    (t.set a').find? k = if k = key a then some a' else t.find? k := by
  split
  · next h =>
    exact find?_eq_some_iff.mpr ⟨(mem_set ha hk).mpr (.inl rfl), hk.trans h.symm⟩
  next h =>
  ext b
  rw [find?_eq_some_iff, find?_eq_some_iff, mem_set ha hk]
  constructor
  · rintro ⟨rfl | hb, he⟩
    · exact absurd (he.symm.trans hk) h
    · exact ⟨hb.1, he⟩
  · rintro ⟨hb, rfl⟩
    exact ⟨.inr ⟨hb, h⟩, rfl⟩

theorem update_eq_set (hf : ∀ a, key (f a) = key a) (hk : ∀ b ∈ t, p b = true → key b = key a)
    (ha : a ∈ t) (hpa : p a = true) : t.update p f hf = t.set (f a) := by
  ext1
  refine map_congr_left fun b hb => ?_
  by_cases h : key b = key a
  · obtain rfl := eq_of_key_eq hb ha h
    rw [if_pos hpa, if_pos (hf b).symm]
  · rw [if_neg fun hpb => h (hk b hb hpb), if_neg (hf a ▸ h)]

theorem updateOne?_eq_set (hf : ∀ a, key (f a) = key a)
    (hk : ∀ b ∈ t, p b = true → key b = k) (ha : a ∈ t) (hpa : p a = true) :
    t.updateOne? p f hf = some (t.set (f a)) := by
  have hone : t.affected p = 1 := by
    have hle : t.affected p ≤ 1 := affected_le_one hk
    have hpos : 0 < t.affected p := affected_pos_iff.mpr ⟨a, ha, hpa⟩
    omega
  rw [updateOne?, if_pos hone,
    update_eq_set hf (fun b hb h => (hk b hb h).trans (hk a ha hpa).symm) ha hpa]

theorem affected_set (ha : a ∈ t) (hk : key a' = key a) (hpq : ∀ b ∈ t, key b ≠ key a → q b = p b) :
    (t.set a').affected q + (p a).toNat = t.affected p + (q a').toNat := by
  have hother : (t.set a').affected (fun b => q b && decide (key b ≠ key a)) =
      t.affected fun b => p b && decide (key b ≠ key a) := by
    rw [affected, set, countP_map]
    refine countP_congr fun b hb => ?_
    by_cases h : key b = key a
    · simp [h, hk]
    · simp [h, hk, hpq b hb h]
  have hown := affected_key (p := q) ((mem_set ha hk).mpr (.inl rfl))
  rw [hk] at hown
  rw [affected_split _ q (key a), hown, hother, affected_split t p (key a), affected_key ha]
  omega

end Set

variable {p : α → Bool}

@[simp] theorem mem_deleteWhere : a ∈ t.deleteWhere p ↔ a ∈ t ∧ p a = false := by
  rw [← mem_rows, deleteWhere, mem_filter, mem_rows, Bool.not_eq_true']

section Insert

variable [DecidableEq κ] {t t' : Table key} {a b : α}

theorem insert?_eq_some (h : t.insert? a = some t') :
    (∀ b ∈ t, key b ≠ key a) ∧ t'.rows = a :: t.rows := by
  unfold insert? at h
  split at h <;> cases h
  next hk =>
  exact ⟨fun b hb he => hk (mem_map.mpr ⟨b, hb, he⟩), rfl⟩

theorem mem_insert? (h : t.insert? a = some t') : b ∈ t' ↔ b = a ∨ b ∈ t := by
  rw [← mem_rows, (insert?_eq_some h).2, mem_cons]
  rfl

theorem find?_insert? (h : t.insert? a = some t') (k : κ) :
    t'.find? k = if k = key a then some a else t.find? k := by
  split
  · next hk => exact find?_eq_some_iff.mpr ⟨(mem_insert? h).mpr (.inl rfl), hk.symm⟩
  next hk =>
  ext b
  rw [find?_eq_some_iff, find?_eq_some_iff, mem_insert? h]
  constructor
  · rintro ⟨rfl | hb, he⟩
    · exact absurd he.symm hk
    · exact ⟨hb, he⟩
  · exact fun hb => ⟨.inr hb.1, hb.2⟩

theorem exists_insert? (h : t.find? (key a) = none) : ∃ t', t.insert? a = some t' := by
  unfold insert?
  split
  · next hk =>
    obtain ⟨b, hb, he⟩ := mem_map.mp hk
    exact absurd he (find?_eq_none_iff.mp h b hb)
  · exact ⟨_, rfl⟩

theorem insert?_eq_none (h : t.insert? a = none) : ∃ b ∈ t, key b = key a := by
  by_contra hnone
  push Not at hnone
  obtain ⟨t', h'⟩ := exists_insert? (find?_eq_none_iff.mpr hnone)
  simp [h] at h'

end Insert

/-- Some row with the key has the property. -/
def Selects (t : Table key) (P : α → Prop) (k : κ) : Prop :=
  ∃ a ∈ t, key a = k ∧ P a

section Selects

variable {t t' : Table key} {P P' Q : α → Prop} {k : κ}

theorem selects_congr (h : ∀ a ∈ t, P a ↔ P' a) : t.Selects P = t.Selects P' := by
  funext k
  refine propext (exists_congr fun a => and_congr_right fun ha => ?_)
  rw [h a ha]

theorem not_selects (h : ∀ a ∈ t, ¬ P a) : ¬ t.Selects P k := by
  rintro ⟨a, ha, _, hP⟩
  exact h a ha hP

theorem selects_key (ha : a ∈ t) : t.Selects P (key a) ↔ P a := by
  constructor
  · rintro ⟨b, hb, hkey, hP⟩
    rwa [eq_of_key_eq hb ha hkey] at hP
  · intro hP
    exact ⟨a, ha, rfl, hP⟩

theorem selects_or (ht : ∀ a, a ∈ t' ↔ a ∈ t ∧ ¬ P a) (hQ : ∀ a, Q a ↔ P a ∨ P' a) :
    t.Selects Q k ↔ t.Selects P k ∨ t'.Selects P' k := by
  constructor
  · rintro ⟨a, ha, hkey, h⟩
    by_cases hP : P a
    · exact .inl ⟨a, ha, hkey, hP⟩
    · exact .inr ⟨a, (ht a).mpr ⟨ha, hP⟩, hkey, ((hQ a).mp h).resolve_left hP⟩
  · rintro (⟨a, ha, hkey, hP⟩ | ⟨a, ha, hkey, hP⟩)
    · exact ⟨a, ha, hkey, (hQ a).mpr (.inl hP)⟩
    · exact ⟨a, ((ht a).mp ha).1, hkey, (hQ a).mpr (.inr hP)⟩

theorem mem_map_filter (t : Table key) (k : κ) (hp : ∀ a ∈ t, p a = true ↔ P a) :
    k ∈ (t.rows.filter p).map key ↔ t.Selects P k := by
  rw [mem_map]
  refine exists_congr fun a => ?_
  rw [mem_filter, and_assoc]
  refine and_congr_right fun ha => ?_
  rw [hp a ha, and_comm]

end Selects

/-- No row appears or disappears, and every row is related to what it was. -/
structure Evolves (R : α → α → Prop) (t t' : Table key) : Prop where
  origin : ∀ a' ∈ t', ∃ a ∈ t, key a = key a' ∧ R a a'
  kept : ∀ a ∈ t, ∃ a' ∈ t', key a' = key a

section Evolves

variable {R R' : α → α → Prop} {t t' : Table key}

theorem Evolves.mono (h : Evolves R t t') (hR : ∀ a a', R a a' → R' a a') : Evolves R' t t' := by
  refine ⟨fun a' ha' => ?_, h.kept⟩
  obtain ⟨a, ha, hk, hr⟩ := h.origin a' ha'
  exact ⟨a, ha, hk, hR a a' hr⟩

theorem Evolves.forall_key {P : κ → Prop} (h : Evolves R t t') (hP : ∀ a ∈ t, P (key a)) :
    ∀ a' ∈ t', P (key a') := by
  intro a' ha'
  obtain ⟨a, ha, hk, _⟩ := h.origin a' ha'
  exact hk ▸ hP a ha

theorem Evolves.exists_key (h : Evolves R t t') (hk : ∃ a ∈ t, key a = k) :
    ∃ a' ∈ t', key a' = k := by
  obtain ⟨a, ha, rfl⟩ := hk
  exact h.kept a ha

theorem Evolves.refl (hR : ∀ a, R a a) (t : Table key) : Evolves R t t :=
  ⟨fun a ha => ⟨a, ha, rfl, hR a⟩, fun a ha => ⟨a, ha, rfl⟩⟩

theorem evolves_update_of_mem {f : α → α} (hf : ∀ a, key (f a) = key a)
    (hR : ∀ a ∈ t, p a = false → R a a) (hRf : ∀ a ∈ t, p a = true → R a (f a)) :
    Evolves R t (t.update p f hf) := by
  constructor
  · intro a' ha'
    obtain ⟨a, ha, rfl⟩ := mem_update.mp ha'
    cases h : p a with
    | true => exact ⟨a, ha, (hf a).symm, hRf a ha h⟩
    | false => exact ⟨a, ha, rfl, hR a ha h⟩
  · intro a ha
    refine ⟨_, mem_update.mpr ⟨a, ha, rfl⟩, ?_⟩
    by_cases h : p a = true <;> simp [h, hf]

theorem evolves_update {f : α → α} (hR : ∀ a, R a a) (hRf : ∀ a ∈ t, p a = true → R a (f a))
    (hf : ∀ a, key (f a) = key a := by intro; rfl) : Evolves R t (t.update p f hf) :=
  evolves_update_of_mem hf (fun a _ _ => hR a) hRf

theorem evolves_updateOne? {f : α → α} {hf : ∀ a, key (f a) = key a}
    (hR : ∀ a, R a a) (hRf : ∀ a ∈ t, p a = true → R a (f a))
    (h : t.updateOne? p f hf = some t') : Evolves R t t' := by
  rw [(updateOne?_eq_some_iff.mp h).2]
  exact evolves_update hR hRf hf

theorem evolves_updateOne?_key {f : α → α} {hf : ∀ a, key (f a) = key a}
    (hp : ∀ a, p a = true → key a = k) (h : t.updateOne? p f hf = some t') :
    Evolves (fun a a' => key a ≠ k ∧ a' = a ∨ key a = k ∧ p a = true ∧ a' = f a) t t' := by
  obtain ⟨b, hb, hpb⟩ := exists_of_updateOne? h
  rw [(updateOne?_eq_some_iff.mp h).2]
  refine evolves_update_of_mem hf (fun a ha hpa => .inl ⟨fun hk => ?_, rfl⟩)
    fun a _ hpa => .inr ⟨hp a hpa, hpa, rfl⟩
  rw [eq_of_key_eq ha hb (hk.trans (hp b hpb).symm), hpb] at hpa
  cases hpa

section

variable (h : Evolves R t t')
include h

theorem Evolves.rel {a' : α} (ha : a ∈ t) (ha' : a' ∈ t') (hk : key a = key a') : R a a' := by
  obtain ⟨b, hb, hkb, hR⟩ := h.origin a' ha'
  rwa [eq_of_key_eq ha hb (hk.trans hkb.symm)]

theorem Evolves.image (ha : a ∈ t) : ∃ a' ∈ t', key a' = key a ∧ R a a' := by
  obtain ⟨a', ha', hk⟩ := h.kept a ha
  exact ⟨a', ha', hk, h.rel ha ha' hk.symm⟩

theorem Evolves.trans {t'' : Table key} (h' : Evolves R t' t'')
    (hR : ∀ a b c, R a b → R b c → R a c) : Evolves R t t'' := by
  constructor
  · intro c hc
    obtain ⟨b, hb, hbc, hRbc⟩ := h'.origin c hc
    obtain ⟨a, ha, hab, hRab⟩ := h.origin b hb
    exact ⟨a, ha, hab.trans hbc, hR a b c hRab hRbc⟩
  · intro a ha
    obtain ⟨b, hb, hba⟩ := h.kept a ha
    obtain ⟨c, hc, hcb⟩ := h'.kept b hb
    exact ⟨c, hc, hcb.trans hba⟩

theorem Evolves.affected_le {q q' : α → Bool}
    (hq : ∀ a ∈ t, ∀ a' ∈ t', key a = key a' → R a a' → q' a' = true → q a = true) :
    t'.affected q' ≤ t.affected q := by
  have hle := affected_le_length (t := t') (p := q') (l := (t.rows.filter q).map key)
    fun a' ha' hqa' => by
      obtain ⟨a, ha, hka, hR⟩ := h.origin a' ha'
      rw [← hka]
      exact mem_map_of_mem (mem_filter.mpr ⟨ha, hq a ha a' ha' hka hR hqa'⟩)
  rwa [length_map, ← countP_eq_length_filter] at hle

theorem Evolves.affected_le_add_one [DecidableEq κ] {q q' : α → Bool}
    (hq : ∀ a ∈ t, ∀ a' ∈ t', key a = key a' → R a a' → q' a' = true → q a = true ∨ key a = k) :
    t'.affected q' ≤ t.affected q + 1 := by
  have hoth : t'.affected (fun a => q' a && decide (key a ≠ k)) ≤ t.affected q := by
    refine h.affected_le fun a ha a' ha' hka hR hsel => ?_
    obtain ⟨hqa', hne⟩ := Bool.and_eq_true_iff.mp hsel
    rcases hq a ha a' ha' hka hR hqa' with hqa | hk
    · exact hqa
    · exact absurd (hka.symm.trans hk) (of_decide_eq_true hne)
  have hone := affected_key_le_one (t := t') (p := q') k
  rw [affected_split t' q' k]
  omega

end

end Evolves

end Table

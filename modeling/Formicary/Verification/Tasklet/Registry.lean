import Formicary.Model.Tasklet

/-! # The registry of a tasklet

Entries refer to calls by number, each under the key of its request. -/

namespace Formicary.Tasklet

open FinMap List Option

variable {t t' : Tasklet} {i j : ℕ} {c : Call} {f : Call → Call} {k requestID : String}

theorem calls_modify (t : Tasklet) (i j : ℕ) (f : Call → Call) :
    (t.modify i f).calls[j]? = if i = j then t.calls[j]?.map f else t.calls[j]? := by
  rw [modify, getElem?_modify]
  split <;> simp

def Registered (t : Tasklet) (i : ℕ) : Prop := i ∈ t.requests.values

instance (t : Tasklet) (i : ℕ) : Decidable (t.Registered i) :=
  inferInstanceAs (Decidable (i ∈ t.requests.values))

theorem registered_iff : t.Registered i ↔ ∃ k, t.requests.lookup k = some i := by
  constructor
  · intro h
    obtain ⟨⟨k, j⟩, he, rfl⟩ := mem_map.mp h
    exact ⟨k, lookup_eq_some_iff_mem.mpr he⟩
  · rintro ⟨k, hk⟩
    exact mem_map.mpr ⟨⟨k, i⟩, lookup_eq_some_iff_mem.mp hk, rfl⟩

/-- Every entry is a call that can be cancelled, under the key of its request. -/
def Keyed (t : Tasklet) : Prop :=
  ∀ k i, t.requests.lookup k = some i →
    ∃ c, t.calls[i]? = some c ∧ c.request.key = k ∧ c.request.cancel = true

theorem Keyed.entry (h : t.Keyed) (hi : t.Registered i) (hc : t.calls[i]? = some c) :
    t.requests.lookup c.request.key = some i ∧ c.request.cancel = true := by
  obtain ⟨k, hk⟩ := registered_iff.mp hi
  obtain ⟨c', hc', rfl, hcanc⟩ := h k i hk
  rw [hc] at hc'
  cases hc'
  exact ⟨hk, hcanc⟩

def dropped (t : Tasklet) (i : ℕ) (key : String) : Tasklet :=
  { t.modify i fun c => { c with contextCancelled := true, dropped := true } with
    requests := t.requests.erase key }

def stopsAt (t : Tasklet) (requestID : String) (order : List ℕ) : Option ℕ :=
  order.find? fun i =>
    t.calls[i]?.any fun c => c.request.jobRequestID == requestID && c.request.cancel

theorem stopsAt_eq_some {order : List ℕ} (h : t.stopsAt requestID order = some i) :
    i ∈ order ∧ ∃ c, t.calls[i]? = some c ∧ c.request.jobRequestID = requestID := by
  refine ⟨mem_of_find?_eq_some h, ?_⟩
  have hmatch := find?_some h
  cases hc : t.calls[i]? with
  | none => simp [hc] at hmatch
  | some c =>
    simp only [hc, any_some, Bool.and_eq_true, beq_iff_eq] at hmatch
    exact ⟨c, rfl, hmatch.1⟩

theorem cancelJob_eq (t : Tasklet) (requestID : String) (order : List ℕ) :
    (t.stopsAt requestID order = none ∧ t.cancelJob requestID order = t) ∨
      ∃ i c, t.stopsAt requestID order = some i ∧ t.calls[i]? = some c ∧
        t.cancelJob requestID order = t.dropped i c.request.key := by
  induction order with
  | nil => exact .inl ⟨rfl, rfl⟩
  | cons i order ih =>
    rw [cancelJob, stopsAt, find?_cons]
    cases hc : t.calls[i]? with
    | none => exact ih
    | some c =>
      dsimp only [any_some]
      by_cases hjob : c.request.jobRequestID = requestID ∧ c.request.cancel = true
      · rw [if_pos hjob]
        refine .inr ⟨i, c, ?_, hc, rfl⟩
        simp [hjob]
      have hfalse : (c.request.jobRequestID == requestID && c.request.cancel) = false := by
        simpa using hjob
      rw [if_neg hjob, hfalse]
      exact ih

def InJob (t : Tasklet) (requestID : String) (i : ℕ) (c : Call) : Prop :=
  t.Registered i ∧ t.calls[i]? = some c ∧ c.request.jobRequestID = requestID

/-- All the registered requests of the job have been cancelled, and nothing has happened to the
others. -/
structure CancelsJob (t : Tasklet) (requestID : String) (t' : Tasklet) : Prop where
  cancelled : ∀ i c, t.InJob requestID i c →
    ∃ c', t'.calls[i]? = some c' ∧ c'.contextCancelled = true
  others : ∀ i c, t.Registered i → t.calls[i]? = some c → c.request.jobRequestID ≠ requestID →
    t'.calls[i]? = some c ∧ t'.Registered i

theorem dropped_others (h : t.Keyed) (hi : t.InJob requestID i c) {c' : Call}
    (hj : t.Registered j) (hc' : t.calls[j]? = some c')
    (hother : c'.request.jobRequestID ≠ requestID) :
    (t.dropped i c.request.key).calls[j]? = some c' ∧ (t.dropped i c.request.key).Registered j := by
  obtain ⟨hreg, hc, hjob⟩ := hi
  have hne : i ≠ j := by
    rintro rfl
    rw [hc] at hc'
    exact hother (some.inj hc' ▸ hjob)
  have hlook := (h.entry hreg hc).1
  have hlook' := (h.entry hj hc').1
  refine ⟨(calls_modify t i j _).trans ((if_neg hne).trans hc'), ?_⟩
  refine registered_iff.mpr ⟨c'.request.key, ?_⟩
  rw [dropped, lookup_erase_eq, if_neg, hlook']
  intro hkey
  rw [hkey, hlook] at hlook'
  exact hne (some.inj hlook')

theorem dropped_cancelled (hc : t.calls[i]? = some c) (key : String) :
    (t.dropped i key).calls[i]? = some { c with contextCancelled := true, dropped := true } := by
  refine (calls_modify t i i _).trans ?_
  rw [if_pos rfl, hc]
  rfl

/-- Whatever the order, all of the job is cancelled if and only if a request of the job that was
not cancelled before is the only one of it. -/
theorem cancelsJob_iff (t : Tasklet) (h : t.Keyed) (requestID : String) :
    (∀ order : List ℕ, order.Perm t.requests.values →
        t.CancelsJob requestID (t.cancelJob requestID order)) ↔
      ∀ i c, t.InJob requestID i c → c.contextCancelled = true ∨
        ∀ j c', t.InJob requestID j c' → j = i := by
  constructor
  · intro hall i c hi
    by_contra hcon
    push Not at hcon
    obtain ⟨hrun, j, c', hj, hne⟩ := hcon
    -- the order in which the other request comes first
    have hperm : (j :: t.requests.values.erase j).Perm t.requests.values :=
      (perm_cons_erase hj.1).symm
    obtain ⟨c₂, hc₂, hcanc⟩ := (hall _ hperm).cancelled i c hi
    rw [cancelJob, hj.2.1] at hc₂
    dsimp only at hc₂
    rw [if_pos ⟨hj.2.2, (h.entry hj.1 hj.2.1).2⟩] at hc₂
    have hsame : (t.dropped j c'.request.key).calls[i]? = some c :=
      (calls_modify t j i _).trans ((if_neg hne).trans hi.2.1)
    cases hsame.symm.trans hc₂
    exact hrun hcanc
  · intro hsole order hperm
    rcases t.cancelJob_eq requestID order with ⟨hnone, heq⟩ | ⟨i, c, hstop, hc, heq⟩
    · rw [heq]
      refine ⟨fun i c hi => ?_, fun i c hi hc _ => ⟨hc, hi⟩⟩
      have hno := find?_eq_none.mp hnone i (hperm.mem_iff.mpr hi.1)
      simp [hi.2.1, hi.2.2, (h.entry hi.1 hi.2.1).2] at hno
    obtain ⟨hi, c₁, hc₁, hjob⟩ := stopsAt_eq_some hstop
    cases some.inj (hc₁.symm.trans hc)
    have hin : t.InJob requestID i c := ⟨hperm.mem_iff.mp hi, hc, hjob⟩
    rw [heq]
    refine ⟨fun j c' hj => ?_, fun j c' hj hc' hother => dropped_others h hin hj hc' hother⟩
    by_cases hij : i = j
    · subst hij
      exact ⟨_, dropped_cancelled hc _, rfl⟩
    rcases hsole j c' hj with hcanc | honly
    · exact ⟨c', (calls_modify t i j _).trans ((if_neg hij).trans hj.2.1), hcanc⟩
    · exact absurd (honly i c hin) hij

def underway (jobRequestID taskType : String) : Call :=
  { newCall .execute jobRequestID taskType "" "replies" with phase := .executing }

def holding (first second : Call) : Tasklet where
  calls := [first, second]
  requests := ((∅ : FinMap String ℕ).insert first.request.key 0).insert second.request.key 1
  replies := []

theorem keyed_holding {first second : Call} (hfirst : first.request.cancel = true)
    (hsec : second.request.cancel = true) : (holding first second).Keyed := by
  intro k i hk
  dsimp only [holding] at hk
  rw [lookup_insert_eq, lookup_insert_eq] at hk
  split at hk
  · next hkey =>
    cases hk
    exact ⟨second, rfl, hkey.symm, hsec⟩
  split at hk <;> cases hk
  next hkey =>
  exact ⟨first, rfl, hkey.symm, hfirst⟩

theorem cancelsJob_of_one_task :
    (holding (underway "1" "build") (underway "2" "test")).Keyed ∧ ∀ order : List ℕ,
      order.Perm (holding (underway "1" "build") (underway "2" "test")).requests.values →
      (holding (underway "1" "build") (underway "2" "test")).CancelsJob "1"
        ((holding (underway "1" "build") (underway "2" "test")).cancelJob "1" order) := by
  refine ⟨keyed_holding rfl rfl,
    (cancelsJob_iff _ (keyed_holding rfl rfl) "1").mpr fun i c hi => .inr fun j c' hj => ?_⟩
  have hzero : ∀ (i : ℕ) (c : Call),
      (holding (underway "1" "build") (underway "2" "test")).InJob "1" i c → i = 0 := by
    rintro (_ | _ | i) c ⟨-, hc, hjob⟩
    · rfl
    · cases hc
      exact absurd hjob (by decide)
    · cases hc
  rw [hzero j c' hj, hzero i c hi]

/-- The children of a fan-out share the id of the request. -/
theorem cancelJob_spares_fanOut :
    let t := holding (underway "1" "deploy-fo-0") (underway "1" "deploy-fo-1")
    t.Keyed ∧ [0, 1].Perm t.requests.values ∧ t.Registered 1 ∧
      (t.cancelJob "1" [0, 1]).calls[1]? = some (underway "1" "deploy-fo-1") ∧
      (underway "1" "deploy-fo-1").contextCancelled = false ∧
      ¬ t.CancelsJob "1" (t.cancelJob "1" [0, 1]) := by
  have hreg : (holding (underway "1" "deploy-fo-0") (underway "1" "deploy-fo-1")).Registered 1 := by
    decide
  refine ⟨keyed_holding rfl rfl, by decide, hreg, by decide, rfl, fun h => ?_⟩
  obtain ⟨c, hc, hcanc⟩ := h.cancelled 1 _ ⟨hreg, rfl, rfl⟩
  cases hc
  cases hcanc

end Formicary.Tasklet

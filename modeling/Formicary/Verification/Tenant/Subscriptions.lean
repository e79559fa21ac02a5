import Formicary.Model.SubscriptionRepository
import Formicary.Verification.Definition.Versions

/-! # Active subscriptions

A new subscription is to replace the active one of its owner. -/

namespace Formicary.SubscriptionRepository

open Table

variable {keyed : Bool} {subs subs' : SubscriptionRepository} {sub : Subscription}
  {qc : QueryContext} {freshID : String}

/-- No owner has two active subscriptions. -/
def Exclusive (subs : SubscriptionRepository) : Prop :=
  ∀ a ∈ subs, ∀ b ∈ subs, a.active = true → b.active = true → a.owner = b.owner → a.id = b.id

instance : DecidablePred Exclusive := fun subs =>
  inferInstanceAs (Decidable (∀ a ∈ subs.rows, ∀ b ∈ subs.rows, _))

/-- Nothing of another owner changes. -/
def Framed (sub : Subscription) (subs subs' : SubscriptionRepository) : Prop :=
  ∀ old ∈ subs, old.owner ≠ sub.owner → old ∈ subs'

/-- The subscription is valid and the caller's, and it has an id if there is one without. -/
def Updatable (subs : SubscriptionRepository) (qc : QueryContext) (sub : Subscription) : Prop :=
  sub.validate = .ok () ∧ qc.matchesOwner sub.userID sub.organizationID false = true ∧
    (sub.id = "" → subs.find? "" = none)

/-- A call that passes the checks finds no other active subscription of the owner. -/
def Vacates (keyed : Bool) (subs : SubscriptionRepository) : Call → Prop
  | .create sub _ => sub.validate = .ok () → keyed = true →
      ∀ old ∈ subs, old.active = true → old.owner ≠ sub.owner
  | .update qc sub => Updatable subs qc sub →
      ∀ old ∈ subs, old.active = true → old.id ≠ sub.id → old.owner ≠ sub.owner

/-- The filter of `Create` selects the subscription. -/
def Selected (sub old : Subscription) : Prop :=
  old.userID = sub.userID ∨ old.organizationID = sub.organizationID

instance (sub old : Subscription) : Decidable (Selected sub old) :=
  inferInstanceAs (Decidable (_ ∨ _))

theorem resets_iff {old : Subscription} (hne : old.id ≠ freshID) :
    resets keyed { sub with id := freshID, active := true } old = true ↔
      keyed = false ∧ old.active = true ∧ Selected sub old := by
  simp [resets, Selected, hne, and_comm]

theorem create_eq_ok (h : create keyed subs sub freshID = .ok subs') :
    sub.validate = .ok () ∧ (∀ old ∈ subs, old.id ≠ freshID) ∧ ∀ row, row ∈ subs' ↔
      row = { sub with id := freshID, active := true } ∨
      ∃ old ∈ subs, (if keyed = false ∧ old.active = true ∧ Selected sub old then
        { old with active := false } else old) = row := by
  obtain ⟨hvalid, h⟩ := Checked.seq_eq_ok.mp h
  dsimp only at h
  split at h
  case h_2 => cases h
  next hins =>
  cases h
  have hfresh : ∀ old ∈ subs, old.id ≠ freshID := by
    intro old hold heq
    have hne := (insert?_eq_some hins).1 _ (mem_update.mpr ⟨old, hold, rfl⟩)
    split at hne
    · exact hne heq
    · exact hne heq
  refine ⟨hvalid, hfresh, fun row => ?_⟩
  rw [mem_insert? hins, mem_update]
  refine or_congr Iff.rfl (exists_congr fun old => and_congr_right fun hold => ?_)
  by_cases hreset : keyed = false ∧ old.active = true ∧ Selected sub old
  · rw [if_pos hreset, if_pos ((resets_iff (hfresh old hold)).mpr hreset)]
  · rw [if_neg hreset, if_neg fun h => hreset ((resets_iff (hfresh old hold)).mp h)]

theorem create_error {err : Error} (h : create keyed subs sub freshID = .error err)
    (hfresh : subs.find? freshID = none) : sub.validate ≠ .ok () := by
  intro hvalid
  rw [create, hvalid] at h
  dsimp only [bind, Except.bind] at h
  split at h
  · cases h
  next hnone =>
  obtain ⟨b, hb, hid⟩ := insert?_eq_none hnone
  exact find?_eq_none_iff.mp (by rw [find?_update, hfresh]; rfl) b hb hid

theorem update_error {err : Error} (h : update subs qc sub = .error err) :
    ¬ Updatable subs qc sub := by
  rintro ⟨hvalid, howner, hid⟩
  rw [update, hvalid] at h
  simp only [bind, Except.bind, howner, Bool.not_true, Bool.false_eq_true, if_false] at h
  split at h
  · cases h
  next hnone =>
  split at h
  · next hempty =>
    obtain ⟨old, hold, hkey⟩ := insert?_eq_none hnone
    exact find?_eq_none_iff.mp (hid hempty) old hold (hkey.trans hempty)
  · cases h

theorem update_eq_ok (h : update subs qc sub = .ok subs') : Updatable subs qc sub ∧ ∀ row,
    row ∈ subs' ↔ row = { sub with active := true } ∨ row ∈ subs ∧ row.id ≠ sub.id := by
  obtain ⟨hvalid, h⟩ := Checked.seq_eq_ok.mp h
  split at h
  · cases h
  next howner =>
  rw [Bool.not_eq_true', Bool.not_eq_false] at howner
  dsimp only [pure_bind] at h
  split at h
  · next hins =>
    cases h
    have hne := (insert?_eq_some hins).1
    refine ⟨⟨hvalid, howner, fun hid => find?_eq_none_iff.mpr (hid ▸ hne)⟩, fun row => ?_⟩
    rw [mem_insert? hins]
    exact or_congr_right ⟨fun hrow => ⟨hrow, hne row hrow⟩, And.left⟩
  next hnone =>
  split at h <;> cases h
  next hne =>
  obtain ⟨old, hold, hid⟩ := insert?_eq_none hnone
  refine ⟨⟨hvalid, howner, fun hempty => absurd hempty hne⟩, fun row => ?_⟩
  rw [mem_set hold hid.symm, hid]

/-- The active subscriptions are a new one and some of those that there were. -/
theorem exclusive_iff (h : Exclusive subs) (new : Subscription) {K : Subscription → Prop}
    (hnew : new.active = true) (hid : ∀ row ∈ subs, K row → row.id ≠ new.id)
    (hmem : ∀ row, row.active = true → (row ∈ subs' ↔ row = new ∨ row ∈ subs ∧ K row)) :
    Exclusive subs' ↔ ∀ row ∈ subs, row.active = true → K row → row.owner ≠ new.owner := by
  constructor
  · intro hex row hrow hact hk howner
    exact hid row hrow hk (hex row ((hmem row hact).mpr (.inr ⟨hrow, hk⟩)) new
      ((hmem new hnew).mpr (.inl rfl)) hact hnew howner)
  · intro hother a ha b hb haa hba howner
    rcases (hmem a haa).mp ha with rfl | ⟨ha, hka⟩ <;>
      rcases (hmem b hba).mp hb with rfl | ⟨hb, hkb⟩
    · rfl
    · exact absurd howner.symm (hother b hb hba hkb)
    · exact absurd howner (hother a ha haa hka)
    · exact h a ha b hb haa hba howner

theorem create_exclusive_iff (h : Exclusive subs)
    (hcr : create keyed subs sub freshID = .ok subs') :
    Exclusive subs' ↔ (keyed = true → ∀ old ∈ subs, old.active = true → old.owner ≠ sub.owner) := by
  obtain ⟨hvalid, hfresh, hmem⟩ := create_eq_ok hcr
  let new : Subscription := { sub with id := freshID, active := true }
  have hkept : ∀ row, row.active = true → (row ∈ subs' ↔ row = new ∨
      row ∈ subs ∧ (keyed = false → ¬ Selected sub row)) := by
    intro row hact
    rw [hmem]
    refine or_congr_right ⟨?_, ?_⟩
    · rintro ⟨old, hold, heq⟩
      split at heq
      · rw [← heq] at hact
        cases hact
      · next hreset =>
        subst heq
        exact ⟨hold, fun hkeyed hsel => hreset ⟨hkeyed, hact, hsel⟩⟩
    · rintro ⟨hrow, hsel⟩
      exact ⟨row, hrow, if_neg fun hreset => hsel hreset.1 hreset.2.2⟩
  rw [exclusive_iff h new rfl (fun row hrow _ => hfresh row hrow) hkept]
  constructor
  · intro hother hkeyed old hold hact
    exact hother old hold hact (by simp [hkeyed])
  · intro hother old hold hact hsel howner
    cases keyed with
    | true => exact hother rfl old hold hact howner
    | false => exact hsel rfl (.inr (JobDefinitionRepository.tenant_of_eq_of.mp howner).1)

theorem step_exclusive_iff {call : Call} (h : Exclusive subs)
    (hstep : step keyed subs call = some subs') : Exclusive subs' ↔ Vacates keyed subs call := by
  cases call with
  | create sub freshID =>
    simp only [step] at hstep
    split at hstep <;> cases hstep
    next hfresh =>
    cases hcr : create keyed subs sub freshID with
    | error => exact iff_of_true h fun hvalid => absurd hvalid (create_error hcr hfresh)
    | ok =>
      rw [Vacates, imp_iff_right (create_eq_ok hcr).1]
      exact create_exclusive_iff h hcr
  | update qc sub =>
    cases hstep
    cases hupd : update subs qc sub with
    | error => exact iff_of_true h fun hok => absurd hok (update_error hupd)
    | ok =>
      obtain ⟨hok, hmem⟩ := update_eq_ok hupd
      rw [Vacates, imp_iff_right hok]
      exact exclusive_iff h { sub with active := true } rfl (fun _ _ hne => hne) fun r _ => hmem r

/-- Owners have at most one active subscription along exactly those runs in which an owner has none
whenever one is created or another one is updated; with the id among the conditions of the reset,
a creation makes none inactive. Without it, a creation also does so for other owners: for those of
the same user, and if it names no organization for all that name none. -/
theorem subscriptions_iff (keyed : Bool) (calls : List Call) :
    ((system keyed).Along Exclusive empty calls ↔
      (system keyed).Meets (Vacates keyed) empty calls) ∧
    ∀ subs sub freshID, Framed sub subs ((create keyed subs sub freshID).toOption.getD subs) ↔
        (subs.find? freshID = none → sub.validate = .ok () → keyed = false →
          ∀ old ∈ subs, old.active = true → old.owner ≠ sub.owner → ¬ Selected sub old) := by
  constructor
  · have hempty : Exclusive empty := fun a ha => absurd ha List.not_mem_nil
    exact TransitionSystem.along_iff_meets_of_iff (fun _ _ _ => step_exclusive_iff) hempty calls
  intro subs sub freshID
  cases hcr : create keyed subs sub freshID with
  | error =>
    exact iff_of_true (fun old hold _ => hold) fun hnew hvalid =>
      absurd hvalid (create_error hcr hnew)
  | ok =>
    obtain ⟨hvalid, hfresh, hmem⟩ := create_eq_ok hcr
    rw [imp_iff_right (find?_eq_none_iff.mpr hfresh), imp_iff_right hvalid]
    simp only [Except.toOption, Option.getD_some]
    constructor
    · intro hframed hkeyed old hold hact hother hsel
      rcases (hmem old).mp (hframed old hold hother) with heq | ⟨old', hold', heq⟩
      · exact hother (by rw [heq]; rfl)
      split at heq
      · rw [← heq] at hact
        cases hact
      · next hreset =>
        subst heq
        exact hreset ⟨hkeyed, hact, hsel⟩
    · intro hnone old hold hother
      refine (hmem old).mpr (.inr ⟨old, hold, if_neg ?_⟩)
      exact fun hreset => hnone hreset.1 old hold hreset.2.1 hother hreset.2.2

def signUp (id freshID : String) : Call :=
  .create (.newFreemiumSubscription ⟨id, id, "", false, empty⟩ 0) freshID

/-- With the id among the conditions a user has two active subscriptions; without it the signup of
one user takes away the subscription of another. -/
theorem signUp_resets_others :
    ¬ (system true).Along Exclusive empty [signUp "ana" "s1", signUp "ana" "s2"] ∧
    (((system false).runWith (fun _ _ => True) empty [signUp "ana" "s1"]).any
      fun subs => hasSubscription subs "ana" 0) = true ∧
    (((system false).runWith (fun _ _ => True) empty [signUp "ana" "s1",
      signUp "joe" "s2"]).any fun subs => !hasSubscription subs "ana" 0) = true := by
  refine ⟨?_, by decide, by decide⟩
  decide

end Formicary.SubscriptionRepository

import Formicary.Model.Trigger

/-! # The row of a trigger

The unique index leaves at most one row for each trigger. -/

namespace Formicary.TriggerStates

open Table Option Bool

variable {states states' : TriggerStates} {d t : String} {s : TriggerState} {freshID : String}
  {onConflict : OnConflict}

def Fresh (states : TriggerStates) (freshID : String) : Prop :=
  freshID ≠ "" ∧ states.find? freshID = none

theorem isFor_iff : isFor d t s = true ↔ s.jobDefinitionID = d ∧ s.triggerName = t := by
  simp [isFor]

theorem Sound.eq_of_isFor {s s' : TriggerState} (h : Sound states) (hs : s ∈ states)
    (hs' : s' ∈ states) (hfor : isFor d t s = true) (hfor' : isFor d t s' = true) : s' = s := by
  obtain ⟨rfl, rfl⟩ := isFor_iff.mp hfor
  exact h.unique s hs s' hs' hfor'

theorem select_eq_none_iff : states.select d t = none ↔ ∀ s ∈ states, isFor d t s = false :=
  first?_eq_none_iff

theorem Sound.select_eq_some_iff (h : Sound states) :
    states.select d t = some s ↔ s ∈ states ∧ isFor d t s = true := by
  constructor
  · exact first?_eq_some
  rintro ⟨hmem, hfor⟩
  cases hsel : states.select d t with
  | none =>
    rw [select_eq_none_iff.mp hsel s hmem] at hfor
    cases hfor
  | some =>
    obtain ⟨hmem', hfor'⟩ := first?_eq_some hsel
    rw [h.eq_of_isFor hmem hmem' hfor hfor']

def marker (states : TriggerStates) (d t : String) : String :=
  (states.select d t).elim "" TriggerState.lastSeenKey

variable {row : TriggerState}

/-- A row has been written, and none of the others is of its trigger. -/
theorem Sound.put_row (h : Sound states) (hid : row.id ≠ "") (hfor : isFor d t row = true)
    (hrow : row ∈ states')
    (hmem : ∀ b ∈ states', b = row ∨ b ∈ states ∧ isFor d t b = false) :
    Sound states' ∧ states'.select d t = some row := by
  obtain ⟨rfl, rfl⟩ := isFor_iff.mp hfor
  have hsound : Sound states' := by
    constructor
    · intro b hb
      rcases hmem b hb with rfl | ⟨hold, -⟩
      · exact hid
      · exact h.ids b hold
    · intro b hb b' hb' hbb'
      rcases hmem b hb with rfl | ⟨hold, hother⟩
      · rcases hmem b' hb' with rfl | ⟨-, hother'⟩
        · rfl
        · rw [hother'] at hbb'
          cases hbb'
      rcases hmem b' hb' with rfl | ⟨hold', -⟩
      · obtain ⟨hd, ht⟩ := isFor_iff.mp hbb'
        have hbfor : isFor b'.jobDefinitionID b'.triggerName b = true :=
          isFor_iff.mpr ⟨hd.symm, ht.symm⟩
        rw [hother] at hbfor
        cases hbfor
      · exact h.unique b hold b' hold' hbb'
  exact ⟨hsound, hsound.select_eq_some_iff.mpr ⟨hrow, hfor⟩⟩

theorem Sound.set_row (h : Sound states) (hs : s ∈ states) (row : TriggerState)
    (hid : row.id = s.id) (hfor : isFor d t row = true)
    (hother : ∀ b ∈ states, b.id ≠ s.id → isFor d t b = false) :
    Sound (states.set row) ∧ select (states.set row) d t = some row :=
  h.put_row (hid ▸ h.ids s hs) hfor ((mem_set hs hid).mpr (.inl rfl)) fun b hb =>
    ((mem_set hs hid).mp hb).imp_right fun hold => ⟨hold.1, hother b hold.1 hold.2⟩

theorem Sound.insert_row (h : Sound states) (hid : row.id ≠ "")
    (hfor : isFor d t row = true) (hother : ∀ b ∈ states, isFor d t b = false)
    (hins : states.insert? row = some states') :
    Sound states' ∧ states'.select d t = some row :=
  h.put_row hid hfor ((mem_insert? hins).mpr (.inl rfl)) fun b hb =>
    ((mem_insert? hins).mp hb).imp_right fun hold => ⟨hold, hother b hold⟩

theorem Sound.isFor_of_ne (h : Sound states) (hs : s ∈ states) (hfor : isFor d t s = true) :
    ∀ b ∈ states, b.id ≠ s.id → isFor d t b = false := by
  intro b hb hne
  rw [eq_false_iff]
  intro hbfor
  exact hne (congrArg TriggerState.id (h.eq_of_isFor hs hb hfor hbfor))

theorem update_eq_set_row (row : TriggerState) (hs : s ∈ states) (hid : row.id = s.id) :
    states.update (fun other => other.id == s.id) (fun other => { row with id := other.id })
      (fun _ => rfl) = states.set row := by
  have heq := update_eq_set (f := fun other => { row with id := other.id }) (fun _ => rfl)
    (fun _ _ he => beq_iff_eq.mp he) hs (beq_self_eq_true s.id)
  rw [heq, ← hid]

theorem Sound.upsert_row (h : Sound states) (hsel : states.select d t = some s)
    (row : TriggerState) (hid : row.id = s.id) (hfor : isFor d t row = true)
    (onConflict : OnConflict) (freshID : String) :
    states.upsert onConflict row freshID = .ok (states.set row) ∧ Sound (states.set row) ∧
      select (states.set row) d t = some row := by
  obtain ⟨hmem, hsfor⟩ := h.select_eq_some_iff.mp hsel
  have hother := h.isFor_of_ne hmem hsfor
  have hne : row.id ≠ "" := hid ▸ h.ids s hmem
  have hfind : states.find? row.id = some s := find?_eq_some_iff.mpr ⟨hmem, hid.symm⟩
  obtain ⟨hdef, hname⟩ := isFor_iff.mp hfor
  have hclash : (states.rows.any fun other =>
      other.id != row.id && isFor row.jobDefinitionID row.triggerName other) = false := by
    rw [List.any_eq_false]
    intro other hmemo hboth
    rw [and_eq_true, bne_iff_ne, hid, hdef, hname] at hboth
    rw [hother other hmemo hboth.1] at hboth
    cases hboth.2
  refine ⟨?_, h.set_row hmem row hid hfor hother⟩
  unfold upsert save
  rw [if_neg hne, hfind]
  rw [if_neg (by rw [hclash]; exact false_ne_true)]
  conv_lhs => rw [hid]
  exact congrArg Except.ok (update_eq_set_row row hmem hid)

theorem create_eq_ok (hok : states.create row = .ok states') :
    (∀ b ∈ states, isFor row.jobDefinitionID row.triggerName b = false) ∧
      states.insert? row = some states' := by
  unfold create at hok
  split at hok
  · cases hok
  next hnone =>
  rw [not_eq_true, List.any_eq_false] at hnone
  split at hok <;> cases hok
  next hins =>
  exact ⟨fun b hb => eq_false_iff.mpr (hnone b hb), hins⟩

theorem Sound.create_row (h : Sound states) (hsel : states.select d t = none)
    (row : TriggerState) (hfresh : Fresh states row.id) (hfor : isFor d t row = true) :
    ∃ states', states.create row = .ok states' ∧ Sound states' ∧
      states'.select d t = some row ∧ states.insert? row = some states' := by
  obtain ⟨hdef, hname⟩ := isFor_iff.mp hfor
  have hnone := select_eq_none_iff.mp hsel
  obtain ⟨states', hins⟩ := exists_insert? hfresh.2
  obtain ⟨hsound, hsel'⟩ := h.insert_row hfresh.1 hfor hnone hins
  have hheld : (states.rows.any (isFor row.jobDefinitionID row.triggerName)) = false := by
    rw [List.any_eq_false]
    intro b hb hbfor
    rw [hdef, hname, hnone b hb] at hbfor
    cases hbfor
  refine ⟨states', ?_, hsound, hsel', hins⟩
  rw [create, if_neg (by rw [hheld]; exact false_ne_true), hins]

theorem Sound.upsert_new (h : Sound states) (hsel : states.select d t = none)
    (hfresh : Fresh states freshID) (row : TriggerState) (hid : row.id = "")
    (hfor : isFor d t row = true) (onConflict : OnConflict) :
    ∃ states', states.upsert onConflict row freshID = .ok states' ∧ Sound states' ∧
      states'.select d t = some { row with id := freshID } ∧
      states.insert? { row with id := freshID } = some states' := by
  obtain ⟨rfl, rfl⟩ := isFor_iff.mp hfor
  obtain ⟨states', hcr, hsound, hsel', hins⟩ :=
    h.create_row hsel { row with id := freshID } hfresh hfor
  refine ⟨states', ?_, hsound, hsel', hins⟩
  unfold upsert save
  rw [if_pos hid]
  rw [hfresh.2]
  rw [hsel]
  exact hcr

/-- The row of a trigger, if there is one, keeps its id and its marker; a new one has none. -/
structure Keeps (d t : String) (states states' : TriggerStates) : Prop where
  sound : Sound states'
  marker : states'.marker d t = states.marker d t
  row : ∀ s ∈ states.select d t, ∃ s' ∈ states'.select d t, s'.id = s.id

theorem Keeps.refl (h : Sound states) : Keeps d t states states :=
  ⟨h, rfl, fun s hs => ⟨s, hs, rfl⟩⟩

theorem Keeps.trans {states'' : TriggerStates} (h : Keeps d t states states')
    (h' : Keeps d t states' states'') : Keeps d t states states'' := by
  refine ⟨h'.sound, h'.marker.trans h.marker, fun s hs => ?_⟩
  obtain ⟨s', hs', hid⟩ := h.row s hs
  obtain ⟨s'', hs'', hid'⟩ := h'.row s' hs'
  exact ⟨s'', hs'', hid'.trans hid⟩

theorem Keeps.select_eq_none (h : Keeps d t states states') (hnone : states'.select d t = none) :
    states.select d t = none := by
  cases hsel : states.select d t with
  | none => rfl
  | some s =>
    obtain ⟨s', hs', -⟩ := h.row s hsel
    cases hs'.symm.trans hnone

theorem Keeps.of_select (hsound : Sound states')
    (hsel : states.select d t = some s) (hsel' : states'.select d t = some row)
    (hid : row.id = s.id) (hkey : row.lastSeenKey = s.lastSeenKey) : Keeps d t states states' := by
  refine ⟨hsound, ?_, fun old hold => ?_⟩
  · rw [TriggerStates.marker, TriggerStates.marker, hsel, hsel']
    exact hkey
  · cases hold.symm.trans hsel
    exact ⟨row, hsel', hid⟩

theorem Keeps.of_none (hsound : Sound states')
    (hsel : states.select d t = none) (hsel' : states'.select d t = some row)
    (hkey : row.lastSeenKey = "") : Keeps d t states states' := by
  refine ⟨hsound, ?_, fun old hold => ?_⟩
  · rw [TriggerStates.marker, TriggerStates.marker, hsel, hsel']
    exact hkey
  · cases hold.symm.trans hsel

variable {p : TriggerState → Bool} {f : TriggerState → TriggerState}

theorem Sound.update_row (h : Sound states) (hf : ∀ s, (f s).id = s.id)
    (hcols : ∀ s, (f s).jobDefinitionID = s.jobDefinitionID ∧ (f s).triggerName = s.triggerName) :
    Sound (states.update p f hf) ∧ select (states.update p f hf) d t =
      (states.select d t).map fun s => if p s then f s else s := by
  have hfor : ∀ (d t : String) (b : TriggerState),
      isFor d t (if p b then f b else b) = isFor d t b := by
    intro d t b
    split
    · rw [isFor, (hcols b).1, (hcols b).2, isFor]
    · rfl
  have hsound : Sound (states.update p f hf) := by
    constructor
    · intro s hs
      obtain ⟨b, hb, rfl⟩ := mem_update.mp hs
      split
      · rw [hf]
        exact h.ids b hb
      · exact h.ids b hb
    · intro s hs s' hs' hss'
      obtain ⟨b, hb, rfl⟩ := mem_update.mp hs
      obtain ⟨b', hb', rfl⟩ := mem_update.mp hs'
      rw [hfor] at hss'
      have hbfor : isFor (if p b then f b else b).jobDefinitionID
          (if p b then f b else b).triggerName b = true := by
        rw [← hfor, isFor_iff]
        exact ⟨rfl, rfl⟩
      rw [h.eq_of_isFor hb hb' hbfor hss']
  refine ⟨hsound, ?_⟩
  cases hsel : states.select d t with
  | none =>
    rw [map_none, select_eq_none_iff]
    intro s hs
    obtain ⟨b, hb, rfl⟩ := mem_update.mp hs
    rw [hfor, select_eq_none_iff.mp hsel b hb]
  | some s =>
    obtain ⟨hmem, hsfor⟩ := h.select_eq_some_iff.mp hsel
    exact hsound.select_eq_some_iff.mpr ⟨mem_update.mpr ⟨s, hmem, rfl⟩, by rw [hfor, hsfor]⟩

theorem Sound.keeps_update (h : Sound states) (hf : ∀ s, (f s).id = s.id)
    (hcols : ∀ s, (f s).jobDefinitionID = s.jobDefinitionID ∧
      (f s).triggerName = s.triggerName ∧ (f s).lastSeenKey = s.lastSeenKey) :
    Keeps d t states (states.update p f hf) := by
  obtain ⟨hsound, hsel'⟩ := h.update_row (p := p) (d := d) (t := t) hf
    fun s => ⟨(hcols s).1, (hcols s).2.1⟩
  cases hsel : states.select d t with
  | none =>
    rw [hsel, map_none] at hsel'
    refine ⟨hsound, ?_, fun s hs => ?_⟩
    · rw [TriggerStates.marker, TriggerStates.marker, hsel, hsel']
    · cases hs.symm.trans hsel
  | some s =>
    rw [hsel, map_some] at hsel'
    refine Keeps.of_select hsound hsel hsel' ?_ ?_
    · split
      · exact hf s
      · rfl
    · split
      · exact (hcols s).2.2
      · rfl

theorem Sound.keeps_increment (h : Sound states) (expiry : Time) :
    Keeps d t states (states.increment d t expiry).1 := by
  refine h.keeps_update ?_ ?_
  · exact fun _ => rfl
  · exact fun _ => ⟨rfl, rfl, rfl⟩

theorem Sound.keeps_touch (h : Sound states) (now : Time) :
    Keeps d t states (states.touch d t now).1 := by
  refine h.keeps_update ?_ ?_
  · exact fun _ => rfl
  · exact fun _ => ⟨rfl, rfl, rfl⟩

theorem Fresh.update (h : Fresh states freshID) (hf : ∀ s, (f s).id = s.id) :
    Fresh (states.update p f hf) freshID :=
  ⟨h.1, by rw [find?_update, h.2, map_none]⟩

-- an id is generated only for a trigger that has no row

variable (h : Sound states) (hfresh : states.select d t = none → Fresh states freshID)
include h hfresh

theorem Sound.keeps_openWindow (onConflict : OnConflict) (now : Time)
    (fault : Statement → Option Error) :
    Keeps d t states (states.openWindow d t onConflict now freshID fault).1 := by
  unfold openWindow
  split
  · exact Keeps.refl h
  dsimp only
  split
  · exact Keeps.refl h
  cases hsel : states.select d t with
  | none =>
    rw [getD_none]
    obtain ⟨states', hups, hsound, hsel', -⟩ := h.upsert_new hsel (hfresh hsel)
      { jobDefinitionID := d, triggerName := t, windowStart := now, windowCount := 1 }
      rfl (isFor_iff.mpr ⟨rfl, rfl⟩) onConflict
    rw [hups]
    exact Keeps.of_none hsound hsel hsel' rfl
  | some s =>
    rw [getD_some]
    obtain ⟨hups, hsound, hsel'⟩ := h.upsert_row hsel
      { s with windowStart := now, windowCount := 1 } rfl
      (h.select_eq_some_iff.mp hsel).2 onConflict freshID
    rw [hups]
    exact Keeps.of_select hsound hsel hsel' rfl rfl

theorem Sound.keeps_incrementWindowCount (onConflict : OnConflict) (window now : Time)
    (fault : Statement → Option Error) :
    Keeps d t states (states.incrementWindowCount d t onConflict window now freshID fault).1 := by
  unfold incrementWindowCount
  split
  · exact Keeps.refl h
  split
  · exact Keeps.refl h
  have hinc : Keeps d t states (states.increment d t (now - window)).1 := h.keeps_increment _
  dsimp only
  split
  · refine hinc.trans (hinc.sound.keeps_openWindow (fun hnone => ?_) onConflict now fault)
    exact (hfresh (hinc.select_eq_none hnone)).update (by exact fun _ => rfl)
  split
  · exact hinc
  · split <;> exact hinc

theorem Sound.keeps_recordFired (now : Time) :
    Keeps d t states (states.recordFired d t now freshID) := by
  unfold recordFired
  split
  · exact Keeps.refl h
  have htouch : Keeps d t states (states.touch d t now).1 := h.keeps_touch now
  dsimp only
  split
  · next haff =>
    have hnone : ∀ b ∈ states, isFor d t b = false := fun b hb =>
      eq_false_iff.mpr (List.countP_eq_zero.mp haff b hb)
    have htouched : (states.touch d t now).1 = states := by
      apply update_eq_self
      exacts [fun _ => rfl, hnone]
    have hsel : (states.touch d t now).1.select d t = none := by
      rw [htouched, select_eq_none_iff]
      exact hnone
    obtain ⟨states', hcr, hsound, hsel', -⟩ := htouch.sound.create_row hsel
      { id := freshID, jobDefinitionID := d, triggerName := t, lastSeenTime := now }
      ((hfresh (htouch.select_eq_none hsel)).update (by exact fun _ => rfl))
      (isFor_iff.mpr ⟨rfl, rfl⟩)
    rw [hcr]
    exact htouch.trans (Keeps.of_none hsound hsel hsel' rfl)
  · exact htouch

end Formicary.TriggerStates

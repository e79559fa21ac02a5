import Formicary.Model.ArtifactManager

/-! # Content and records

The object store is called before the database and without regard to it. -/

namespace Formicary.ArtifactManager

variable {s s' s₀ : State} {action : Action} {qc : QueryContext} {id : String} {f : Faults}

def State.deletion (s : State) : Action → Option (QueryContext × String × Faults)
  | .deleteArtifact qc id f _ => some (qc, id, f)
  | .nextRecord f _ =>
    s.expiring.bind fun e => e.records.head?.map fun record => (e.qc, record.id, f)
  | _ => none

def Permitted (s : State) (action : Action) (s' : State) : Prop :=
  ∀ id ∈ s.contents, id ∉ s'.contents → ∃ qc f, s.deletion action = some (qc, id, f) ∧
    ∃ a ∈ s.artifacts, deletable qc id a = true

/-- No active record is left without the content that it had. -/
def Kept (s₀ s : State) : Prop :=
  ∀ a ∈ s.artifacts, a.active = true → a.id ∈ s₀.contents → a.id ∈ s.contents

def Lawful (s₀ s : State) (action : Action) : Prop :=
  ∀ s' ∈ step s action, Permitted s action s' ∧ Kept s₀ s'

/-- If content is removed, then the database does not fail and finds the record. -/
def Consistent (s : State) (action : Action) : Prop :=
  ∀ qc id f, s.deletion action = some (qc, id, f) → id ∈ s.contents → f.removes = true →
    f.database = none ∧ ∃ a ∈ s.artifacts, deletable qc id a = true

theorem deletable_id {a : Artifact} (h : deletable qc id a = true) : a.id = id := by
  simp only [deletable, Bool.and_eq_true, beq_iff_eq] at h
  exact h.1.1

theorem mem_contents_deleteArtifact (now : Time) (id' : String) :
    id' ∈ (deleteArtifact s qc id f now).1.contents ↔
      id' ∈ s.contents ∧ ¬ (id' = id ∧ f.removes = true) := by
  have hcont : (deleteArtifact s qc id f now).1.contents =
      if f.removes then s.contents.erase id else s.contents := by
    unfold deleteArtifact
    dsimp only
    split
    · rfl
    · split <;> rfl
  rw [hcont]
  split <;> simp [*, AList.mem_erase, and_comm]

theorem artifacts_deleteArtifact (now : Time) : (deleteArtifact s qc id f now).1.artifacts =
      if f.database = none then
        s.artifacts.update (deletable qc id) (fun a => { a with active := false, updatedAt := now })
          fun _ => rfl
      else s.artifacts := by
  unfold deleteArtifact delete
  cases hdb : f.database with
  | some => rfl
  | none =>
    rw [if_pos rfl]
    cases hupd : s.artifacts.updateOne? (deletable qc id)
        (fun a => { a with active := false, updatedAt := now }) (fun _ => rfl) with
    | some => exact (Table.updateOne?_eq_some_iff.mp hupd).2
    | none =>
      exact (Table.update_eq_self
        (Table.not_selected_of_updateOne? (fun _ => deletable_id) hupd)).symm

theorem mem_artifacts_deleteArtifact (now : Time) {a : Artifact} (hact : a.active = true) :
    a ∈ (deleteArtifact s qc id f now).1.artifacts ↔
      a ∈ s.artifacts ∧ ¬ (f.database = none ∧ deletable qc id a = true) := by
  rw [artifacts_deleteArtifact]
  split
  · next hdb =>
    rw [Table.mem_update]
    constructor
    · rintro ⟨b, hb, rfl⟩
      split at hact
      · cases hact
      · next hno => simpa [hdb, hno] using hb
    · rintro ⟨ha, hno⟩
      exact ⟨a, ha, if_neg fun hdel => hno ⟨hdb, hdel⟩⟩
  · next hdb => simp [hdb]

theorem step_stores (he : step s action = some s') :
    (s.deletion action = none ∧ s'.artifacts = s.artifacts ∧ s'.contents = s.contents) ∨
    ∃ qc id f now, s.deletion action = some (qc, id, f) ∧
      s'.artifacts = (deleteArtifact s qc id f now).1.artifacts ∧
      s'.contents = (deleteArtifact s qc id f now).1.contents := by
  cases action with
  | deleteArtifact qc id f now =>
    cases he
    exact .inr ⟨qc, id, f, now, rfl, rfl, rfl⟩
  | expireArtifacts =>
    simp only [step] at he
    split at he <;> cases he
    exact .inl ⟨rfl, rfl, rfl⟩
  | nextPage =>
    simp only [step] at he
    split at he
    · split at he <;> cases he <;> exact .inl ⟨rfl, rfl, rfl⟩
    · cases he
      exact .inl ⟨rfl, rfl, rfl⟩
    · cases he
  | nextRecord f now =>
    simp only [step] at he
    split at he
    · next qc expiration record records pages hexpiring =>
      refine .inr ⟨qc, record.id, f, now, by simp [State.deletion, hexpiring], ?_⟩
      split at he <;> cases he <;> next hdel => simp [hdel]
    · cases he

def Inv (s₀ s : State) : Prop :=
  Kept s₀ s ∧ ∀ id ∈ s.contents, id ∈ s₀.contents

theorem contents_step (he : step s action = some s') (h : id ∈ s'.contents) : id ∈ s.contents := by
  rcases step_stores he with ⟨-, -, hcont⟩ | ⟨qc, id', f, now, -, -, hcont⟩
  · rwa [hcont] at h
  rw [hcont, mem_contents_deleteArtifact] at h
  exact h.1

theorem consistent_of_lawful (h : Inv s₀ s) (he : step s action = some s')
    (hlaw : Permitted s action s' ∧ Kept s₀ s') : Consistent s action := by
  intro qc id f hdeletion hmem hrem
  rcases step_stores he with ⟨hnone, -⟩ | ⟨qc', id', f', now, hsome, harts, hcont⟩
  · rw [hdeletion] at hnone
    cases hnone
  rw [hdeletion] at hsome
  cases hsome
  have hgone : id ∉ s'.contents := by
    rw [hcont, mem_contents_deleteArtifact]
    exact fun hkept => hkept.2 ⟨rfl, hrem⟩
  obtain ⟨qc', f', hsome, a, ha, hdel⟩ := hlaw.1 id hmem hgone
  rw [hdeletion] at hsome
  cases hsome
  refine ⟨?_, a, ha, hdel⟩
  -- otherwise the record would stay active
  by_contra hdb
  have hact : a.active = true := by
    simp only [deletable, Bool.and_eq_true] at hdel
    exact hdel.1.2
  have hstays : a ∈ s'.artifacts := by
    rw [harts, mem_artifacts_deleteArtifact now hact]
    exact ⟨ha, fun hboth => hdb hboth.1⟩
  obtain rfl := deletable_id hdel
  exact hgone (hlaw.2 a hstays hact (h.2 _ hmem))

theorem lawful_of_consistent (h : Inv s₀ s) (he : step s action = some s')
    (hcons : Consistent s action) : Permitted s action s' ∧ Kept s₀ s' := by
  rcases step_stores he with ⟨-, harts, hcont⟩ | ⟨qc, id, f, now, hdeletion, harts, hcont⟩
  · refine ⟨fun id hmem hgone => absurd (hcont ▸ hmem) hgone, ?_⟩
    unfold Kept
    rw [harts, hcont]
    exact h.1
  constructor
  · intro id' hmem hgone
    rw [hcont, mem_contents_deleteArtifact] at hgone
    obtain ⟨rfl, hrem⟩ := not_not.mp fun hno => hgone ⟨hmem, hno⟩
    exact ⟨qc, f, hdeletion, (hcons qc id' f hdeletion hmem hrem).2⟩
  · intro a ha hact hmem₀
    rw [harts, mem_artifacts_deleteArtifact now hact] at ha
    have hmem := h.1 a ha.1 hact hmem₀
    rw [hcont, mem_contents_deleteArtifact]
    refine ⟨hmem, ?_⟩
    rintro ⟨rfl, hrem⟩
    obtain ⟨hdb, b, hb, hdel⟩ := hcons qc a.id f hdeletion hmem hrem
    cases Table.eq_of_key_eq hb ha.1 (deletable_id hdel)
    exact ha.2 ⟨hdb, hdel⟩

/-- From any stores the calls remove content only where it is permitted, and leave no active record
without its content, exactly if every deletion that removes content deletes the record. -/
theorem deletions_lawful_iff (s₀ : State) (actions : List Action) :
    (system s₀).Meets (Lawful s₀) s₀ actions ↔ (system s₀).Meets Consistent s₀ actions := by
  have hinit : Inv s₀ s₀ := ⟨fun a _ _ hmem => hmem, fun id hmem => hmem⟩
  refine TransitionSystem.meets_iff_meets (I := Inv s₀) (fun s _ s' h he => ⟨⟨?_, ?_⟩, ?_⟩) hinit
  · exact fun hlaw => consistent_of_lawful h he (hlaw s' he)
  · exact fun hcons s' he => lawful_of_consistent h he hcons
  · exact fun hlaw => ⟨(hlaw s' he).2, fun id hmem => h.2 id (contents_step he hmem)⟩

def acmeLog : State where
  artifacts := ⟨[⟨"log", "alice", "acme", true, 0, 0⟩], List.nodup_singleton _⟩
  contents := AList.singleton "log" ()
  expiring := none

theorem content_of_another_tenant : ¬ ∀ s₀ actions, (system s₀).Meets (Lawful s₀) s₀ actions := by
  intro h
  -- a user of another organization deletes it by its id
  have hlaw := (h acmeLog [.deleteArtifact
    (QueryContext.newQueryContextFromIDs "bob" "globex") "log" {} 0] _ rfl).1 _ rfl
  have hkept := hlaw.2 ⟨"log", "alice", "acme", true, 0, 0⟩
    (Table.mem_rows.mp (by decide)) rfl (by decide)
  exact absurd hkept (by decide)

end Formicary.ArtifactManager

import Formicary.Verification.Lifecycle.Changes
import Formicary.Verification.Lifecycle.SingleExecution

/-! # The keys of ended requests

The unique index on user keys keeps two requests with one key apart, and a request gives its key up
when it ends: finalizing it, failing it and rejecting it put a generated key in the place of the one
it was submitted with. -/

namespace Formicary.Lifecycle

open RequestState JobRequestRepository

/-- The state of the system and the requests as they were submitted. -/
structure Keyed where
  state : State
  submitted : List JobRequest

namespace Keyed

def initial : Keyed := ⟨State.initial, []⟩

def Fresh (s : Keyed) (key : Option String) : Prop :=
  ∀ k ∈ key, ∀ req ∈ s.submitted, k ≠ req.userKey

instance (s : Keyed) (key : Option String) : Decidable (s.Fresh key) :=
  inferInstanceAs (Decidable (∀ k ∈ key, ∀ req ∈ s.submitted, k ≠ req.userKey))

/-- An action under the unique index, with generated keys that are fresh. -/
def step (s : Keyed) (action : Action) : Option Keyed :=
  match action with
  | .submit req =>
    if s.state.db.requests.rows.any (holdsKey req.userKey) then none
    else (Lifecycle.step s.state action).map fun state => ⟨state, req :: s.submitted⟩
  | _ =>
    if s.Fresh action.userKey then
      (Lifecycle.step s.state action).map fun state => ⟨state, s.submitted⟩
    else none

end Keyed

/-- Requests are submitted under the unique index, and the keys that actions generate are new. -/
def keyedSystem : TransitionSystem Keyed Action where
  init s := s = Keyed.initial
  step := Keyed.step

/-- A request that has ended does not stand in the way of another with the key that it was
submitted with. -/
def Freed (db : Database) (submitted : List JobRequest) : Prop :=
  ∀ req ∈ submitted, ∀ r ∈ db.requests, r.id = req.id → r.jobState.isTerminal = true →
    holdsKey req.userKey r = false

instance (db : Database) (submitted : List JobRequest) : Decidable (Freed db submitted) :=
  inferInstanceAs (Decidable (∀ req ∈ submitted, ∀ r ∈ db.requests, _))

/-- A cancellation only meets a request that has given its key up before. -/
def CancelsKeyless (s : Keyed) : Action → Prop
  | .cancel qc req _ =>
    ∀ r ∈ s.state.db.requests, cancellable qc req r = true → ∀ sub ∈ s.submitted, r.id = sub.id →
        holdsKey sub.userKey r = false
  | _ => True

variable {db db' : Database} {subs : List JobRequest} {key : Option String}

def Frees (key : Option String) (r r' : JobRequest) : Prop :=
  key = some r'.userKey ∨
    r'.userKey = r.userKey ∧ (r'.jobState.isTerminal = true → r.jobState.isTerminal = true)

theorem Frees.refl (key : Option String) (r : JobRequest) : Frees key r r := .inr ⟨rfl, id⟩

theorem Freed.of_evolves (h : Freed db subs) (hfresh : ∀ k ∈ key, ∀ req ∈ subs, k ≠ req.userKey)
    (hreqs : db.requests.Evolves (Frees key) db'.requests) : Freed db' subs := by
  intro req hreq r' hr' hid hend
  obtain ⟨r, hr, hk, hrel⟩ := hreqs.origin r' hr'
  rcases hrel with hkey | ⟨hsame, hterm⟩
  · exact beq_eq_false_iff_ne.mpr (hfresh r'.userKey hkey req hreq)
  have hold := h req hreq r hr (hk.trans hid) (hterm hend)
  unfold holdsKey at hold ⊢
  rw [hsame, hold]

theorem frees_of_rowWrite {s : State} {action : Action} {r r' : JobRequest}
    (h : RowWrite s db action r r') (hcanc : ∀ qc req now, action ≠ .cancel qc req now) :
    Frees action.userKey r r' := by
  cases h with
  | same | postpone => exact Frees.refl _ _
  | marks | approve | requeue => exact .inr ⟨rfl, nofun⟩
  | @moves _ _ new _ _ _ hmoves _ hkey =>
    have hkey' := hmoves.userKey
    by_cases hnew : new.isTerminal = true
    · exact .inl (by rw [hkey hnew, hkey', if_pos hnew])
    · exact .inr ⟨by rw [hkey', if_neg hnew], fun hend => absurd (hmoves.target ▸ hend) hnew⟩
  | reverts _ _ hmoves =>
    refine .inr ⟨?_, ?_⟩
    · rw [hmoves.userKey, revertState_not_terminal]
      rfl
    · rw [hmoves.target, revertState_not_terminal]
      exact nofun
  | cancel => exact absurd rfl (hcanc _ _ _)
  | reject => exact .inl rfl
  | restart _ hstate _ hkey => exact .inr ⟨hkey, by rw [hstate]; exact nofun⟩

theorem cancelTransaction_freed_iff {qc : QueryContext} {req : JobRequest} {now : Time}
    (h : Freed db subs) :
    Freed (commit db (cancelTransaction db qc req now)) subs ↔
      ∀ r ∈ db.requests, cancellable qc req r = true → ∀ sub ∈ subs, r.id = sub.id →
        holdsKey sub.userKey r = false := by
  have hreqs := cancelTransaction_requests db qc req now
  constructor
  · intro hfreed r hr hp sub hsub hid
    have hr' : cancelRow now r ∈ (commit db (cancelTransaction db qc req now)).requests := by
      rw [hreqs]
      exact Table.mem_update.mpr ⟨r, hr, if_pos hp⟩
    exact hfreed sub hsub (cancelRow now r) hr' hid rfl
  · intro hkeyless sub hsub r' hr' hid hend
    rw [hreqs] at hr'
    obtain ⟨r, hr, rfl⟩ := Table.mem_update.mp hr'
    by_cases hp : cancellable qc req r = true
    · rw [if_pos hp] at hid ⊢
      exact hkeyless r hr hp sub hsub hid
    · rw [if_neg hp] at hid hend ⊢
      exact h sub hsub r hr hid hend

variable {s s' : Keyed} {action : Action}

theorem Keyed.step_eq (hs : s.step action = some s') :
    Lifecycle.step s.state action = some s'.state ∧
      ((∃ req, action = .submit req ∧ s'.submitted = req :: s.submitted) ∨
        (∀ req, action ≠ .submit req) ∧ s.Fresh action.userKey ∧ s'.submitted = s.submitted) := by
  unfold Keyed.step at hs
  split at hs
  · next req =>
    split at hs
    · cases hs
    obtain ⟨state, hstep, rfl⟩ := Option.map_eq_some_iff.mp hs
    exact ⟨hstep, .inl ⟨req, rfl, rfl⟩⟩
  · next hne =>
    split at hs
    · next hfresh =>
      obtain ⟨state, hstep, rfl⟩ := Option.map_eq_some_iff.mp hs
      exact ⟨hstep, .inr ⟨hne, hfresh, rfl⟩⟩
    · cases hs

theorem submit_freed {state state' : State} {req : JobRequest} (h : Freed state.db subs)
    (hs : step state (.submit req) = some state') : Freed state'.db (req :: subs) := by
  simp only [step] at hs
  split at hs
  · next hnew =>
    obtain ⟨requests, hins, rfl⟩ := Option.map_eq_some_iff.mp hs
    intro sub hsub r hr hid hend
    rcases (Table.mem_insert? hins).mp hr with rfl | hr
    · rw [hnew.2.1] at hend
      cases hend
    rcases List.mem_cons.mp hsub with rfl | hsub
    · exact absurd hid ((Table.insert?_eq_some hins).1 r hr)
    · exact h sub hsub r hr hid hend
  · cases hs

theorem freed_step_iff (h : Freed s.state.db s.submitted) (hs : s.step action = some s') :
    Freed s'.state.db s'.submitted ↔ CancelsKeyless s action := by
  obtain ⟨hstep, ⟨req, rfl, hsub⟩ | ⟨hne, hfresh, hsub⟩⟩ := Keyed.step_eq hs
  · rw [hsub]
    exact iff_of_true (submit_freed h hstep) trivial
  rw [hsub]
  obtain ⟨req, rfl, -⟩ | hrows := step_rows hstep
  · exact absurd rfl (hne req)
  obtain ⟨state', subs'⟩ := s'
  cases action with
  | cancel =>
    simp only [step] at hstep
    split at hstep <;> cases hstep
    exact cancelTransaction_freed_iff h
  | _ =>
    refine iff_of_true (h.of_evolves hfresh (hrows.mono ?_)) trivial
    exact fun r r' hwrite => frees_of_rowWrite hwrite (by simp)

/-- Ended requests have given their keys up throughout a run exactly when every cancellation in it
meets requests that had done so before. -/
theorem freed_iff_cancelsKeyless (as : List Action) :
    keyedSystem.Along (fun s => Freed s.state.db s.submitted) Keyed.initial as ↔
      keyedSystem.Meets CancelsKeyless Keyed.initial as := by
  refine TransitionSystem.along_iff_meets_of_iff (fun s action s' h hs => freed_step_iff h hs) ?_ as
  intro req hreq
  cases hreq

def submitAndCancel : List Action :=
  let admin := QueryContext.newQueryContext none
  [.submit (submitted "r1"), .read admin "r1", .cancel admin (submitted "r1") 0]

/-- The cancelled request still has its key, and the same request cannot be saved again. -/
theorem key_held_after_cancel : ∃ s, keyedSystem.Reachable s ∧ ¬ Freed s.state.db s.submitted ∧
      (save s.state.db (QueryContext.newQueryContext none) (submitted "r1")
        "r2" "g2" 0).isOk = false :=
  keyedSystem.exists_reachableWith (fun _ _ => True) _ submitAndCancel rfl (by decide)

end Formicary.Lifecycle

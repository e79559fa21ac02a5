import Formicary.Verification.Lifecycle.Changes
import Formicary.Verification.Lifecycle.SingleExecution

/-! # Hard restarts

A hard restart sets a flag on the request, and while the flag is set no result of an earlier
execution is taken over. -/

namespace Formicary.Lifecycle

open RequestState JobRequestRepository Table Option

/-- The flag of a request, if there is such a request. -/
def hardRestartOf (db : Database) (id : String) : Option Bool :=
  (db.requests.find? id).map JobRequest.hardRestart

def jobStateOf (db : Database) (id : String) : Option RequestState :=
  (db.requests.find? id).map JobRequest.jobState

def restarted (s : State) (id : String) : Action → Option Bool
  | .restart qc id' hard newJobDefinitionID now =>
    if id' = id ∧ (restart s.db qc id' hard newJobDefinitionID now).toOption.isSome then
      some hard
    else none
  | _ => none

/-- The last restart of the request in a run, if there is one: whether it is hard. -/
def lastRestarted (id : String) : State → List Action → Option Bool
  | _, [] => none
  | s, a :: as =>
    ((step s a).bind fun s' => lastRestarted id s' as) <|> restarted s id a

/-- The run that follows a hard restart of the request has just been launched. -/
structure HardLaunched (id : String) (s : State) : Prop where
  launched : ∃ as s₀ execID now, system.runWith (fun _ _ => True) State.initial as = some s₀ ∧
      lastRestarted id State.initial as = some true ∧
      jobStateOf s₀.db id = some ready ∧
      step s₀ (.setExecuting execID now) = some s ∧
      jobStateOf s.db id = some executing

def KeepsFlags (db db' : Database) : Prop :=
  ∀ id, hardRestartOf db' id = hardRestartOf db id

section KeepsFlags

variable {db db' : Database} {id : String} {now : Time}

theorem keepsFlags_of_evolves
    (h : db.requests.Evolves (fun r r' => r'.hardRestart = r.hardRestart) db'.requests) :
    KeepsFlags db db' := by
  intro id
  unfold hardRestartOf
  cases hfind : db'.requests.find? id with
  | none =>
    have hnone : db.requests.find? id = none :=
      find?_eq_none_iff.mpr fun r hr hid => by
        obtain ⟨r', hr', hid'⟩ := h.exists_key ⟨r, hr, hid⟩
        exact find?_eq_none_iff.mp hfind r' hr' hid'
    rw [hnone]
  | some r' =>
    obtain ⟨hr', hid'⟩ := find?_eq_some_iff.mp hfind
    obtain ⟨r, hr, hid, hflag⟩ := h.origin r' hr'
    have hfind' : db.requests.find? id = some r :=
      find?_eq_some_iff.mpr ⟨hr, hid.trans hid'⟩
    rw [hfind']
    exact congrArg some hflag

theorem restart_flag {qc : QueryContext} {hard : Bool} {newJobDefinitionID : String}
    (h : restart db qc id hard newJobDefinitionID now = .ok db') :
    hardRestartOf db' id = some hard ∧
      ∀ id', id' ≠ id → hardRestartOf db' id' = hardRestartOf db id' := by
  unfold restart at h
  split at h <;> cases h
  next requests hupd =>
  have hreqs := (updateOne?_eq_some_iff.mp hupd).2
  obtain ⟨r, hr, hsel⟩ := exists_of_updateOne? hupd
  have hid : r.id = id := by
    have h' := (Bool.and_eq_true _ _).mp ((Bool.and_eq_true _ _).mp hsel).1
    exact beq_iff_eq.mp h'.1
  have hfind : db.requests.find? id = some r := find?_eq_some_iff.mpr ⟨hr, hid⟩
  refine ⟨?_, fun id' hne => ?_⟩
  · simp only [hardRestartOf, hreqs, find?_update, hfind, map_some, hsel, if_true]
  simp only [hardRestartOf, hreqs, find?_update, map_map]
  cases hfind' : db.requests.find? id' with
  | none => rfl
  | some r' =>
    have hid' : r'.id = id' := (find?_eq_some_iff.mp hfind').2
    have hne' : r'.id ≠ id := hid' ▸ hne
    simp [hne']

end KeepsFlags

variable {s s' : State} {action : Action}

theorem keepsFlags_of_rows (h : s.RowsBy action s'.db) (hrest : action.restarts = none) :
    KeepsFlags s.db s'.db := by
  refine keepsFlags_of_evolves (h.mono ?_)
  intro r r' hwrite
  cases hwrite with
  | moves _ hflag | reverts _ _ _ hflag => exact hflag
  | restart => cases hrest
  | _ => rfl

variable {id : String}

theorem step_flag (hs : step s action = some s') {flag : Bool}
    (hflag : hardRestartOf s.db id = some flag) :
    hardRestartOf s'.db id = some ((restarted s id action).getD flag) := by
  obtain ⟨req, rfl, -, -, hins⟩ | hrows := step_rows hs
  · have hne : req.id ≠ id := by
      rintro rfl
      obtain ⟨r, hfind, _⟩ := map_eq_some_iff.mp hflag
      obtain ⟨hr, hid⟩ := find?_eq_some_iff.mp hfind
      exact (insert?_eq_some hins).1 r hr hid
    rw [hardRestartOf, find?_insert? hins, if_neg (Ne.symm hne)]
    exact hflag
  cases action with
  | restart qc id' hard newJobDefinitionID now =>
    cases hs
    simp only [restarted]
    cases hres : restart s.db qc id' hard newJobDefinitionID now with
    | error => simpa [commit, Except.toOption] using hflag
    | ok =>
      obtain ⟨hset, hother⟩ := restart_flag hres
      by_cases hid : id' = id
      · subst hid
        simpa [commit, Except.toOption] using hset
      · simpa [commit, hid] using (hother id (Ne.symm hid)).trans hflag
  | _ => exact (keepsFlags_of_rows hrows rfl id).trans hflag

theorem step_restarted (hs : step s action = some s') {hard : Bool}
    (h : restarted s id action = some hard) : hardRestartOf s'.db id = some hard := by
  unfold restarted at h
  split at h
  · next qc id' hard' newJobDefinitionID now =>
    cases hs
    split at h
    · next hdone =>
      obtain ⟨rfl, hdone⟩ := hdone
      obtain rfl : hard' = hard := some.inj h
      cases hres : restart s.db qc id' hard' newJobDefinitionID now with
      | error => simp [hres, Except.toOption] at hdone
      | ok => exact (restart_flag hres).1
    · cases h
  · cases h

theorem run_flag {flag : Bool} {as : List Action}
    (hrun : system.runWith (fun _ _ => True) s as = some s')
    (hflag : hardRestartOf s.db id = some flag) :
    hardRestartOf s'.db id = some ((lastRestarted id s as).getD flag) := by
  induction as generalizing s flag with
  | nil =>
    cases hrun
    exact hflag
  | cons a as ih =>
    obtain ⟨s₁, hs, hrun'⟩ := bind_eq_some_iff.mp hrun
    have hs' : step s a = some s₁ := hs
    rw [ih hrun' (step_flag hs' hflag), lastRestarted, hs', bind_some]
    cases lastRestarted id s₁ as <;> rfl

theorem run_restarted {hard : Bool} {as : List Action}
    (hrun : system.runWith (fun _ _ => True) s as = some s')
    (h : lastRestarted id s as = some hard) : hardRestartOf s'.db id = some hard := by
  induction as generalizing s with
  | nil => cases h
  | cons a as ih =>
    obtain ⟨s₁, hs, hrun'⟩ := bind_eq_some_iff.mp hrun
    have hs' : step s a = some s₁ := hs
    rw [lastRestarted, hs', bind_some] at h
    cases hlast : lastRestarted id s₁ as with
    | some =>
      rw [hlast] at h
      cases h
      exact ih hrun' hlast
    | none =>
      rw [hlast] at h
      have hflag := run_flag hrun' (step_restarted hs' h)
      rwa [hlast] at hflag

theorem HardLaunched.flag (h : HardLaunched id s) : hardRestartOf s.db id = some true := by
  obtain ⟨as, s₀, execID, now, hrun, hlast, _, hs, _⟩ := h.launched
  exact step_flag hs (run_restarted hrun hlast)

/-- However the run that a hard restart was meant for goes on, the flag is cleared if and only if
the request has been restarted since, and softly the last time. -/
theorem cleared_iff_softly_restarted {id : String} (h : HardLaunched id s) (as : List Action)
    (hrun : system.runWith (fun _ _ => True) s as = some s') :
    hardRestartOf s'.db id = some false ↔ lastRestarted id s as = some false := by
  rw [run_flag hrun h.flag]
  cases lastRestarted id s as <;> simp

def hardRestartAndLaunch : List Action :=
  .submit (submitted "r1") :: scheduleUpToSave "r1" "e1" ++
    [.markReady 0, .sendLaunchEvent true, .setExecuting "e1" 0, .finalize "e1" .executionFailed {},
      .restart (QueryContext.newQueryContext none) "r1" true "" 0] ++
    scheduleUpToSave "r1" "e2" ++ [.markReady 0, .sendLaunchEvent true]

/-- It is paused and the scheduler takes it up again. -/
def pauseAndResume : List Action :=
  .finalize "e2" .pauseJob {} :: scheduleUpToSave "r1" "" ++ [.markReady 0]

def failAndRestartSoftly : List Action :=
  [.finalize "e2" .executionFailed {}, .restart (QueryContext.newQueryContext none) "r1" false "" 0]

theorem exists_hardLaunched (id : String) (before : List Action) (execID : String) (now : Time)
    (after : List Action) (p : State → State → Prop)
    (hlast : lastRestarted id State.initial before = some true)
    (h : ∃ s₀ ∈ system.runWith (fun _ _ => True) State.initial before,
      jobStateOf s₀.db id = some ready ∧ ∃ s ∈ step s₀ (.setExecuting execID now),
        jobStateOf s.db id = some executing ∧
          ∃ s' ∈ system.runWith (fun _ _ => True) s after, p s s') :
    ∃ s s', HardLaunched id s ∧ system.runWith (fun _ _ => True) s after = some s' ∧ p s s' := by
  obtain ⟨s₀, hrun, hready, s, hs, hexec, s', hrun', hp⟩ := h
  exact ⟨s, s', ⟨⟨before, s₀, execID, now, hrun, hlast, hready, hs, hexec⟩⟩, hrun', hp⟩

theorem cleared_after_soft_restart : ∃ s s', HardLaunched "r1" s ∧
      system.runWith (fun _ _ => True) s failAndRestartSoftly = some s' ∧
      hardRestartOf s'.db "r1" = some false := by
  obtain ⟨s, s', h, hrun, hlast⟩ := exists_hardLaunched "r1" hardRestartAndLaunch "e2" 0
    failAndRestartSoftly (fun s _ => lastRestarted "r1" s failAndRestartSoftly = some false)
    (by decide) (by decide)
  exact ⟨s, s', h, hrun, (cleared_iff_softly_restarted h failAndRestartSoftly hrun).mpr hlast⟩

/-- Resumed after a pause, without any other restart, the job still may not take over a result. -/
theorem flagged_after_resume : ∃ s s' r, HardLaunched "r1" s ∧
      system.runWith (fun _ _ => True) s pauseAndResume = some s' ∧
      lastRestarted "r1" s pauseAndResume = none ∧
      s'.db.requests.find? "r1" = some r ∧ r.jobState = ready ∧
      ∀ hardResetAfterRetries lastTaskExecution,
        canReusePreviousResult hardResetAfterRetries r lastTaskExecution = false := by
  obtain ⟨s, s', h, hrun, hlast, hflag, hready⟩ := exists_hardLaunched "r1" hardRestartAndLaunch
    "e2" 0 pauseAndResume (fun s s' => lastRestarted "r1" s pauseAndResume = none ∧
      hardRestartOf s'.db "r1" = some true ∧ jobStateOf s'.db "r1" = some ready)
    (by decide) (by decide)
  obtain ⟨r, hr, hhard⟩ := map_eq_some_iff.mp hflag
  rw [jobStateOf, hr] at hready
  exact ⟨s, s', r, h, hrun, hlast, hr, some.inj hready, fun k last =>
    canReusePreviousResult_of_hardRestart hhard⟩

end Formicary.Lifecycle

import Formicary.Model.RateLimit
import Formicary.Verification.Trigger.States

/-! # What passes in a window

The unique index leaves one row for a trigger, whatever runs side by side. -/

namespace Formicary

open List Function

namespace TriggerStates

variable {states states' : TriggerStates} {d t : String} {freshID : String}
  {onConflict : OnConflict}

section

variable (h : Sound states)
include h

theorem Sound.save_eq_ok (row : TriggerState) (hid : row.id ≠ "")
    (hfor : isFor d t row = true) (hok : states.save onConflict row = .ok states') :
    Sound states' ∧ ∃ id, states'.select d t = some { row with id := id } := by
  obtain ⟨rfl, rfl⟩ := isFor_iff.mp hfor
  unfold save at hok
  split at hok
  · next old hfind =>
    obtain ⟨hold, holdid⟩ := Table.find?_eq_some_iff.mp hfind
    split at hok
    · cases hok
    next hclash =>
    rw [Bool.not_eq_true, any_eq_false] at hclash
    have hother : ∀ b ∈ states, b.id ≠ old.id →
        isFor row.jobDefinitionID row.triggerName b = false := by
      intro b hb hne
      rw [Bool.eq_false_iff]
      intro hbfor
      refine hclash b hb ?_
      rw [Bool.and_eq_true, bne_iff_ne, ← holdid]
      exact ⟨hne, hbfor⟩
    have hset := update_eq_set_row row hold holdid.symm
    rw [holdid] at hset
    cases hok.symm.trans (congrArg Except.ok hset)
    obtain ⟨hsound, hsel⟩ := h.set_row hold row holdid.symm hfor hother
    exact ⟨hsound, row.id, hsel⟩
  · split at hok
    · next old hsel =>
      obtain ⟨hold, holdfor⟩ := h.select_eq_some_iff.mp hsel
      have hset := update_eq_set_row { row with id := old.id } hold rfl
      cases hok.symm.trans (congrArg Except.ok hset)
      obtain ⟨hsound, hsel'⟩ := h.set_row hold { row with id := old.id } rfl hfor
        (h.isFor_of_ne hold holdfor)
      exact ⟨hsound, old.id, hsel'⟩
    · obtain ⟨hother, hins⟩ := create_eq_ok hok
      obtain ⟨hsound, hsel⟩ := h.insert_row hid hfor hother hins
      exact ⟨hsound, row.id, hsel⟩

theorem Sound.upsert_eq_ok {row : TriggerState} (hfresh : freshID ≠ "")
    (hfor : isFor d t row = true) (hok : states.upsert onConflict row freshID = .ok states') :
    Sound states' ∧ ∃ id, states'.select d t = some { row with id := id } := by
  unfold upsert at hok
  split at hok
  · exact h.save_eq_ok { row with id := freshID } hfresh hfor hok
  · next hid => exact h.save_eq_ok row hid hfor hok

theorem Sound.affected_le_one : states.affected (isFor d t) ≤ 1 := by
  cases hsel : states.select d t with
  | none =>
    have hzero : states.affected (isFor d t) = 0 :=
      countP_eq_zero.mpr fun b hb => Bool.eq_false_iff.mp (select_eq_none_iff.mp hsel b hb)
    omega
  | some s =>
    obtain ⟨hs, hfor⟩ := h.select_eq_some_iff.mp hsel
    refine Table.affected_le_one (k := s.id) fun b hb hbfor => ?_
    rw [h.eq_of_isFor hs hb hfor hbfor]

theorem Sound.increment_row {expiry : Time} {n : ℕ}
    (heq : states.increment d t expiry = (states', n)) :
    Sound states' ∧ (n = 0 ∧ states' = states ∨ n ≠ 0 ∧ ∃ s, states.select d t = some s ∧
      states'.select d t = some { s with windowCount := s.windowCount + 1 }) := by
  have hf : ∀ s : TriggerState,
      ({ s with windowCount := s.windowCount + 1 } : TriggerState).id = s.id := fun _ => rfl
  obtain ⟨hsound, hsel⟩ := h.update_row
    (p := fun state => isFor d t state && decide (expiry ≤ state.windowStart)) (d := d) (t := t) hf
    fun _ => ⟨rfl, rfl⟩
  cases heq
  refine ⟨hsound, ?_⟩
  rcases Nat.eq_zero_or_pos (states.increment d t expiry).2 with hzero | hpos
  · refine .inl ⟨hzero, ?_⟩
    exact Table.update_eq_self fun b hb => Bool.eq_false_iff.mpr (countP_eq_zero.mp hzero b hb)
  obtain ⟨s, hs, hact⟩ := Table.affected_pos_iff.mp hpos
  have hrow : states.select d t = some s :=
    h.select_eq_some_iff.mpr ⟨hs, (Bool.and_eq_true_iff.mp hact).1⟩
  rw [hrow, Option.map_some, if_pos hact] at hsel
  exact .inr ⟨Nat.pos_iff_ne_zero.mp hpos, s, hrow, hsel⟩

theorem Sound.touch_row {now : Time} {n : ℕ}
    (heq : states.touch d t now = (states', n)) : Sound states' ∧
      states'.select d t = (states.select d t).map fun s => { s with lastSeenTime := now } := by
  cases heq
  have hf : ∀ s : TriggerState, ({ s with lastSeenTime := now } : TriggerState).id = s.id :=
    fun _ => rfl
  obtain ⟨hsound, hsel⟩ := h.update_row (p := isFor d t) (d := d) (t := t) hf fun _ => ⟨rfl, rfl⟩
  refine ⟨hsound, hsel.trans ?_⟩
  cases hrow : states.select d t with
  | none => rfl
  | some =>
    rw [Option.map_some, Option.map_some, if_pos (h.select_eq_some_iff.mp hrow).2]

end

end TriggerStates

namespace RateLimit

open TriggerStates

variable {l : Limited} {onConflict : OnConflict} {given : Given} {world world' : World}
  {thread next : Thread}

def Caller.Own (l : Limited) : Caller → Prop
  | .event => True
  | .poll loop => isFor l.jobDefinitionID l.trigger.name loop.state = true

def Thread.Own (l : Limited) : Thread → Prop
  | .store state => isFor l.jobDefinitionID l.trigger.name state = true
  | .save caller state => caller.Own l ∧ isFor l.jobDefinitionID l.trigger.name state = true ∧
      state.windowCount = 1
  | .increment caller _ | .find caller _ | .reread caller _ | .submit caller | .touch caller _
  | .create caller _ => caller.Own l
  | .poll | .done => True

def Thread.window : Thread → Option ℕ
  | .reread _ window => some window
  | _ => none

variable {caller : Caller}

@[simp] theorem window_reread {window : ℕ} :
    (Thread.reread caller window).window = some window := rfl

variable {now : Time}

theorem scan_own {state : TriggerState} {broken : Bool}
    (h : isFor l.jobDefinitionID l.trigger.name state = true) (lastKey : String)
    (objects : List S3Poller.S3Object) :
    (scan l now state broken lastKey objects).Own l ∧
      (scan l now state broken lastKey objects).window = none := by
  induction objects generalizing lastKey with
  | nil =>
    unfold scan
    split
    · exact ⟨trivial, rfl⟩
    split
    · exact ⟨h, rfl⟩
    · exact ⟨trivial, rfl⟩
  | cons object rest ih =>
    unfold scan
    split
    · exact ih _
    split
    · exact ih _
    · exact ih _
    · exact ⟨h, rfl⟩

theorem resume_own {failed : Bool} (h : caller.Own l) :
    (resume l now failed caller).Own l ∧ (resume l now failed caller).window = none := by
  cases caller with
  | event => exact ⟨trivial, rfl⟩
  | poll => exact scan_own h _ _

theorem afterFault_own (now : Time) (h : thread.Own l) :
    (afterFault l now thread).Own l ∧ (afterFault l now thread).window = none := by
  cases thread with
  | save => exact resume_own h.1
  | increment caller _ | find caller _ | reread caller _ | submit caller | touch caller _
  | create => exact resume_own h
  | poll | store | done => exact ⟨trivial, rfl⟩

/-- What a statement can do to the row and to what is counted. -/
inductive Effect (l : Limited) (world : World) (thread : Thread) : World → Thread → Prop where
  | quiet (states : TriggerStates) (next : Thread)
      (hcount : count l states = count l world.states) (hnext : next.window = none) :
      Effect l world thread { world with states := states } next
  | counted (states : TriggerStates) (caller : Caller)
      (hcount : count l states = count l world.states + 1) :
      Effect l world thread { world with states := states } (.reread caller world.windows)
  | stored (states : TriggerStates) :
      Effect l world thread
        { world with
          states := states
          lost := world.lost + (count l world.states - count l states) } .done
  | started (states : TriggerStates) (caller : Caller) (hcount : count l states = 1) :
      Effect l world thread { world.startWindow states with passed := 1 } (.submit caller)
  | passed (caller : Caller) (window : ℕ) (hthread : thread = .reread caller window)
      (hmax : (count l world.states : ℤ) ≤ l.limit.max) :
      Effect l world thread
        { world with
          passed := world.passed + 1
          late := if window = world.windows then world.late else world.late + 1 }
        (.submit caller)

theorem count_of_select {states : TriggerStates} {s : TriggerState}
    (h : states.select l.jobDefinitionID l.trigger.name = some s) :
    count l states = s.windowCount := by
  rw [count, h, Option.elim_some]

/-- The trigger states and the thread that a statement leaves. -/
structure Lawful (l : Limited) (world : World) (thread : Thread) (result : World × Thread) :
    Prop where
  sound : Sound result.1.states
  own : result.2.Own l
  effect : Effect l world thread result.1 result.2

theorem statement_lawful (hsound : Sound world.states) (hown : thread.Own l)
    (hfresh : given.freshID ≠ "") :
    Lawful l world thread (statement l onConflict given world thread) := by
  have hsame : ∀ next : Thread, next.Own l ∧ next.window = none →
      Lawful l world thread (world, next) :=
    fun next h => ⟨hsound, h.1, .quiet world.states next rfl h.2⟩
  cases thread with
  | poll =>
    simp only [statement]
    cases hsel : world.states.select l.jobDefinitionID l.trigger.name with
    | none => exact hsame _ ⟨isFor_iff.mpr ⟨rfl, rfl⟩, rfl⟩
    | some =>
      have hfor := (hsound.select_eq_some_iff.mp hsel).2
      dsimp only
      split
      · exact hsame _ (scan_own hfor _ _)
      · exact hsame _ (scan_own hfor _ _)
  | store state =>
    simp only [statement]
    cases hups : world.states.upsert onConflict state given.freshID with
    | error => exact hsame _ ⟨trivial, rfl⟩
    | ok states =>
      exact ⟨(hsound.upsert_eq_ok hfresh hown hups).1, trivial, .stored states⟩
  | increment caller now =>
    simp only [statement]
    cases hinc : world.states.increment _ _ _
    obtain ⟨hsound', ⟨hzero, rfl⟩ | ⟨hne, s, hsel, hsel'⟩⟩ := hsound.increment_row hinc
    · rw [if_pos hzero]
      exact hsame _ ⟨hown, rfl⟩
    · rw [if_neg hne]
      refine ⟨hsound', hown, .counted _ caller ?_⟩
      rw [count_of_select hsel, count_of_select hsel']
  | find =>
    refine hsame _ ⟨⟨hown, ?_, rfl⟩, rfl⟩
    cases hsel : world.states.select l.jobDefinitionID l.trigger.name with
    | none => exact isFor_iff.mpr ⟨rfl, rfl⟩
    | some => exact (hsound.select_eq_some_iff.mp hsel).2
  | save caller state =>
    simp only [statement]
    cases hups : world.states.upsert onConflict state given.freshID with
    | error => exact hsame _ (resume_own hown.1)
    | ok states =>
      obtain ⟨hsound', id, hsel⟩ := hsound.upsert_eq_ok hfresh hown.2.1 hups
      have hmax : ((1 : ℕ) : ℤ) ≤ l.limit.max := l.positive
      simp only [judge]
      rw [if_pos hmax]
      refine ⟨hsound', hown.1, ?_⟩
      have hcount : count l states = 1 := (count_of_select hsel).trans hown.2.2
      have heff : Effect l world (.save caller state)
          { world.startWindow states with passed := 1 } (.submit caller) :=
        .started states caller hcount
      simpa [World.startWindow] using heff
  | reread caller window =>
    simp only [statement]
    cases hsel : world.states.select l.jobDefinitionID l.trigger.name with
    | none => exact hsame _ (resume_own hown)
    | some =>
      dsimp only
      unfold judge
      split
      · next hmax =>
        rw [← count_of_select hsel] at hmax
        exact ⟨hsound, hown, .passed caller window rfl hmax⟩
      · exact hsame _ (resume_own hown)
  | submit =>
    simp only [statement]
    split
    · exact hsame _ ⟨hown, rfl⟩
    · exact hsame _ (resume_own hown)
    · exact hsame _ (resume_own hown)
  | touch caller now =>
    simp only [statement]
    cases htouch : world.states.touch _ _ _ with | _ states n
    obtain ⟨hsound', hsel⟩ := hsound.touch_row htouch
    have hcount : count l states = count l world.states := by
      rw [count, hsel, count]
      cases world.states.select l.jobDefinitionID l.trigger.name <;> rfl
    split
    · exact ⟨hsound', hown, .quiet _ _ hcount rfl⟩
    · exact ⟨hsound', (resume_own hown).1, .quiet _ _ hcount (resume_own hown).2⟩
  | create =>
    simp only [statement]
    cases hcr : world.states.create _ with
    | error => exact hsame _ (resume_own hown)
    | ok states =>
      obtain ⟨hother, hins⟩ := create_eq_ok hcr
      obtain ⟨hsound', hsel⟩ := hsound.insert_row hfresh (isFor_iff.mpr ⟨rfl, rfl⟩) hother hins
      refine ⟨hsound', (resume_own hown).1, .quiet states _ ?_ (resume_own hown).2⟩
      rw [count_of_select hsel, count, select_eq_none_iff.mpr hother, Option.elim_none]
  | done => exact hsame _ ⟨trivial, rfl⟩

def rereads (threads : List Thread) (window : ℕ) : ℕ :=
  threads.countP fun thread => thread.window == some window

def World.pending (world : World) : ℕ :=
  world.threads.countP fun thread => thread.window == some world.windows

structure Inv (l : Limited) (world : World) : Prop where
  sound : Sound world.states
  own : ∀ thread ∈ world.threads, thread.Own l
  past : ∀ thread ∈ world.threads, ∀ window ∈ thread.window, window ≤ world.windows
  counted : world.passed + world.pending ≤ count l world.states + world.lost + world.late
  bounded : (world.passed : ℤ) ≤ l.limit.max + world.lost + world.late

theorem Inv.init (h : (system l onConflict).init world) : Inv l world := by
  obtain ⟨hsound, hthrs, hpassed, -, -⟩ := h
  have hmax := l.positive
  refine ⟨hsound, by simp [hthrs], by simp [hthrs], ?_, by omega⟩
  rw [World.pending, hthrs, countP_nil, hpassed]
  omega

theorem Inv.start (h : Inv l world) (hown : next.Own l) (hnext : next.window = none) :
    Inv l { world with threads := world.threads ++ [next] } := by
  refine ⟨h.sound, ?_, ?_, ?_, h.bounded⟩
  · exact forall_mem_append.mpr ⟨h.own, forall_mem_singleton.mpr hown⟩
  · refine forall_mem_append.mpr ⟨h.past, forall_mem_singleton.mpr fun window hwin => ?_⟩
    rw [hnext] at hwin
    cases hwin
  · have hpend : ({ world with threads := world.threads ++ [next] } : World).pending =
        world.pending := by
      simp [World.pending, hnext]
    rw [hpend]
    exact h.counted

variable {threads : List Thread} {i : ℕ}

theorem rereads_set (hi : threads[i]? = some thread) (next : Thread) (k : ℕ) :
    rereads (threads.set i next) k + (if thread.window = some k then 1 else 0) =
      rereads threads k + (if next.window = some k then 1 else 0) := by
  obtain ⟨hlt, hget⟩ := List.getElem?_eq_some_iff.mp hi
  have hpos : thread.window = some k → 0 < rereads threads k := by
    intro hwin
    refine List.countP_pos_iff.mpr ⟨thread, List.mem_of_getElem? hi, ?_⟩
    rw [hwin, beq_self_eq_true]
  unfold rereads at hpos ⊢
  rw [List.countP_set hlt, hget]
  split <;> split <;> simp_all

theorem rereads_set_none (hi : threads[i]? = some thread)
    (next : Thread) (hnext : next.window = none) (k : ℕ) :
    rereads (threads.set i next) k + (if thread.window = some k then 1 else 0) =
      rereads threads k := by
  have hmove := rereads_set hi next k
  have hnone : ¬ (none : Option ℕ) = some k := by simp
  rw [hnext, if_neg hnone] at hmove
  exact hmove

theorem Effect.frame (h : Effect l world thread world' next) :
    world'.threads = world.threads ∧ world.windows ≤ world'.windows ∧
      ∀ window ∈ next.window, window = world'.windows := by
  cases h with
  | quiet states next hcount hnext =>
    refine ⟨rfl, le_rfl, fun window hwin => ?_⟩
    rw [hnext] at hwin
    cases hwin
  | counted =>
    exact ⟨rfl, le_rfl, fun window hwin => (Option.some.inj hwin).symm⟩
  | stored | passed caller window => exact ⟨rfl, le_rfl, nofun⟩
  | started =>
    exact ⟨rfl, Nat.le_succ _, nofun⟩

theorem Inv.pending_started (h : Inv l world) (i : ℕ) (next : Thread) (hnext : next.window = none) :
    rereads (world.threads.set i next) (world.windows + 1) = 0 := by
  rw [rereads, countP_eq_zero]
  intro thread hthr hwin
  rw [beq_iff_eq] at hwin
  rcases mem_or_eq_of_mem_set hthr with hold | rfl
  · have hle := h.past thread hold (world.windows + 1) hwin
    omega
  · rw [hnext] at hwin
    cases hwin

theorem Inv.ledger (h : Inv l world) (hi : world.threads[i]? = some thread)
    (heff : Effect l world thread world' next) :
    world'.passed + rereads (world.threads.set i next) world'.windows ≤
        count l world'.states + world'.lost + world'.late ∧
      (world'.passed : ℤ) ≤ l.limit.max + world'.lost + world'.late := by
  have hcnt : world.passed + rereads world.threads world.windows ≤ _ := h.counted
  have hbnd := h.bounded
  cases heff with
  | quiet states next hcount hnext =>
    have hmove := rereads_set_none hi next hnext world.windows
    dsimp only
    exact ⟨by omega, hbnd⟩
  | counted states caller hcount =>
    have hmove := rereads_set hi (.reread caller world.windows) world.windows
    rw [window_reread, if_pos rfl] at hmove
    dsimp only
    exact ⟨by omega, hbnd⟩
  | stored =>
    have hmove := rereads_set_none hi .done rfl world.windows
    dsimp only
    exact ⟨by omega, by push_cast; omega⟩
  | started states caller hcount =>
    have hmax := l.positive
    have hpend := h.pending_started i (.submit caller) rfl
    simp only [World.startWindow]
    exact ⟨by omega, by omega⟩
  | passed caller window hthr =>
    subst hthr
    have hmove := rereads_set_none hi (.submit caller) rfl world.windows
    dsimp only
    by_cases hwin : window = world.windows
    · -- the evaluation has been counted, and the count is within the limit
      rw [window_reread, if_pos (congrArg some hwin)] at hmove
      rw [if_pos hwin]
      exact ⟨by omega, by push_cast; omega⟩
    · rw [if_neg hwin]
      exact ⟨by omega, by push_cast; omega⟩

theorem Inv.advance (h : Inv l world) (hi : world.threads[i]? = some thread)
    (hlaw : Lawful l world thread (world', next)) :
    Inv l { world' with threads := world'.threads.set i next } := by
  obtain ⟨hsound, hown, heff⟩ := hlaw
  obtain ⟨hthrs, hwindows, hwin⟩ := heff.frame
  obtain ⟨hcnt, hbnd⟩ := h.ledger hi heff
  rw [← hthrs] at hcnt
  refine ⟨hsound, ?_, ?_, hcnt, hbnd⟩
  · intro other hother
    rcases mem_or_eq_of_mem_set hother with hold | rfl
    · exact h.own other (hthrs ▸ hold)
    · exact hown
  · intro other hother window hmem
    rcases mem_or_eq_of_mem_set hother with hold | rfl
    · exact (h.past other (hthrs ▸ hold) window hmem).trans hwindows
    · exact (hwin window hmem).le

theorem Inv.step {action : Action} (h : Inv l world)
    (hstep : step l onConflict world action = some world') : Inv l world' := by
  cases action with
  | wait =>
    cases hstep
    exact { h with }
  | receive | poll =>
    cases hstep
    exact h.start trivial rfl
  | run =>
    simp only [RateLimit.step] at hstep
    split at hstep
    · next hfresh =>
      obtain ⟨thread, hi, rfl⟩ := Option.map_eq_some_iff.mp hstep
      exact h.advance hi (statement_lawful h.sound (h.own thread (mem_of_getElem? hi)) hfresh.1)
    · cases hstep
  | fail =>
    obtain ⟨thread, hi, rfl⟩ := Option.map_eq_some_iff.mp hstep
    obtain ⟨hown, hwin⟩ := afterFault_own world.clock (h.own thread (mem_of_getElem? hi))
    exact h.advance hi ⟨h.sound, hown, .quiet world.states _ rfl hwin⟩

def twice : Limited where
  jobDefinitionID := "d1"
  trigger := { type := .s3, name := "inbox", rateLimit := some ⟨2, 10⟩ }
  identified h := absurd h (by decide)
  templates _ := .ok true
  limit := ⟨2, 10⟩
  limited := rfl
  positive := by decide
  lasting := by decide

def object (key : String) : S3Poller.S3Object := ⟨key, "", 0, 0⟩

def bucket : S3Poller.Bucket := ⟨[object "a"], by decide, by decide⟩

def idle : World := { clock := 100, states := Table.empty }

theorem idle_init : (system twice .fail).init idle := ⟨by decide, rfl, rfl, rfl, rfl⟩

def firstEvent : List Action :=
  [.receive, .run 0 ⟨"t1", bucket, none, .saved⟩, .run 0 ⟨"t1", bucket, none, .saved⟩,
    .run 0 ⟨"t1", bucket, none, .saved⟩]

def onePoll : List Action :=
  .poll :: List.replicate 6 (.run 1 ⟨"t2", bucket, none, .saved⟩)

def laterEvent (i : ℕ) : List Action :=
  [.receive, .run i ⟨"t2", bucket, none, .saved⟩, .run i ⟨"t2", bucket, none, .saved⟩]

-- without a poll: the second event is counted, the window expires, the third starts the next one,
-- and the second reads its count
example : ∃ world, (system twice .fail).Reachable world ∧ world.windows = 2 ∧ world.passed = 3 :=
  TransitionSystem.exists_reachableWith (S := system twice .fail) (fun _ _ => True) (s := idle)
    _ (firstEvent ++ [.receive, .run 1 ⟨"t2", bucket, none, .saved⟩, .wait 11, .receive] ++
      List.replicate 3 (.run 2 ⟨"t2", bucket, none, .saved⟩) ++
      [.run 1 ⟨"t2", bucket, none, .saved⟩] ++ laterEvent 3) idle_init (by decide)

end RateLimit

end Formicary

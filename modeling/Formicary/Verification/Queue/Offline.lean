import Formicary.Library.Pool
import Formicary.Model.Queue.OfflineSend

/-! # Messages that the offline buffer keeps

`drainBuffer` removes a message from the buffer when its call of `sendFrameAwaitAck` returns an
answer, whatever the answer is. -/

namespace Formicary.Queue.Offline

open Function List State Pool

variable {config : QueueConfig} {wsCfg : WebSocketConfig} {s s' : State}

def State.Acknowledged (s : State) (a : Accepted) : Prop :=
  a.frameID ∈ s.acked ∨ ∃ row ∈ a.row, ∃ f ∈ s.acked, (f, row.id) ∈ s.carried

def State.Buffered (s : State) (a : Accepted) : Prop :=
  ∃ row ∈ a.row, row ∈ s.buffer.rows

def State.Expired (s : State) (a : Accepted) : Prop :=
  ∃ row ∈ a.row, row.expiresAt ≤ s.now

/-- No message for which `Send` returned success is lost before it expires. -/
def Kept (s : State) : Prop :=
  ∀ a ∈ s.accepted, s.Acknowledged a ∨ s.Buffered a ∨ s.Expired a

instance : DecidablePred Kept := fun s => by
  unfold Kept State.Acknowledged State.Buffered State.Expired
  infer_instance

def Thread.unanswered : Thread → Option ID
  | .call (.drain _ _) frame .write => some frame.id
  | .call (.drain _ _) frame .writing => some frame.id
  | .call (.drain _ _) frame .await => some frame.id
  | _ => none

def Thread.failsPending : Thread → Bool
  | .lost => true
  | .call _ _ .reset => true
  | _ => false

/-- Pending calls are answered for a lost connection only when each `drainBuffer` that waits has
its answer already. -/
def DrainsAnswered (s : State) : Action → Prop
  | .run i => ∀ thread ∈ s.threads[i]?, thread.failsPending = true →
      ∀ other ∈ s.threads, ∀ id ∈ other.unanswered, id ∈ s.pending → s.channel id ≠ none
  | _ => True

instance (s : State) : DecidablePred (DrainsAnswered s) := fun a => by
  cases a <;> dsimp only [DrainsAnswered] <;> infer_instance

/-- What holds of the frame and the message that a goroutine is about. -/
structure ThreadOk (acked : List ID) (carried : List (ID × ℕ)) (channel : ID → Option WSFrame)
    (thread : Thread) : Prop where
  /-- a message is removed when a frame that carried it has been acknowledged -/
  removes : ∀ m rest, thread = .remove m rest → ∃ f ∈ acked, (f, m.id) ∈ carried
  sent : ∀ frame resp, thread = .call .send frame (.finish (some resp)) → resp.type ≠ .error →
    frame.id ∈ acked
  carries : ∀ m rest frame stage, thread = .call (.drain m rest) frame stage →
    (frame.id, m.id) ∈ carried
  drained : ∀ m rest frame resp, thread = .call (.drain m rest) frame (.finish (some resp)) →
    frame.id ∈ acked
  answered : ∀ id ∈ thread.unanswered, channel id ≠ none → id ∈ acked

structure Sound (s : State) : Prop where
  kept : Kept s
  /-- an answer is the server's or tells of a lost connection -/
  channel : ∀ id frame, s.channel id = some frame → frame.type = .error ∨ id ∈ s.acked
  toAnt : ∀ frame ∈ s.toAnt, frame.id ∈ s.acked
  threads : ∀ thread ∈ s.threads, ThreadOk s.acked s.carried s.channel thread

theorem sound_initial : Sound initial := by
  refine ⟨fun _ h => ?_, fun _ _ h => ?_, fun _ h => ?_, fun _ h => ?_⟩ <;> cases h

variable {acked : List ID} {carried : List (ID × ℕ)} {channel : ID → Option WSFrame}
  {thread : Thread}

theorem ThreadOk.mono {acked' : List ID} {carried' : List (ID × ℕ)} {channel' : ID → Option WSFrame}
    (h : ThreadOk acked carried channel thread) (hacked : acked ⊆ acked')
    (hcarr : carried ⊆ carried') (hchannel : ∀ id ∈ thread.unanswered, channel' id ≠ none →
      channel id ≠ none ∨ id ∈ acked') : ThreadOk acked' carried' channel' thread := by
  refine ⟨?_, ?_, ?_, ?_, ?_⟩
  · intro m rest heq
    obtain ⟨f, hf, hrow⟩ := h.removes m rest heq
    exact ⟨f, hacked hf, hcarr hrow⟩
  · intro frame resp heq hresp
    exact hacked (h.sent frame resp heq hresp)
  · intro m rest frame stage heq
    exact hcarr (h.carries m rest frame stage heq)
  · intro m rest frame resp heq
    exact hacked (h.drained m rest frame resp heq)
  · intro id hid hsome
    rcases hchannel id hid hsome with hold | hid'
    · exact hacked (h.answered id hid hold)
    · exact hid'

def Thread.idle : Thread → Bool
  | .remove _ _ | .call _ _ _ => false
  | _ => true

theorem threadOk_of_idle (h : thread.idle = true) : ThreadOk acked carried channel thread := by
  cases thread
  case remove | call => cases h
  all_goals constructor <;> simp [Thread.unanswered]

variable {m : BufferedMessage} {rest : List BufferedMessage}

theorem threadOk_remove (h : ∃ f ∈ acked, (f, m.id) ∈ carried) :
    ThreadOk acked carried channel (.remove m rest) where
  removes _ _ heq := by
    cases heq
    exact h
  sent _ _ heq := by cases heq
  carries _ _ _ _ heq := by cases heq
  drained _ _ _ _ heq := by cases heq
  answered _ hid := by cases hid

theorem Sound.kept_mono (h : Sound s) (hacked : s.acked ⊆ s'.acked)
    (hcarr : s.carried ⊆ s'.carried) (hnow : s.now ≤ s'.now)
    (hbuffer : ∀ row ∈ s.buffer.rows, row ∈ s'.buffer.rows ∨ row.expiresAt ≤ s'.now ∨
      ∃ f ∈ s'.acked, (f, row.id) ∈ s'.carried) :
    ∀ a ∈ s.accepted, s'.Acknowledged a ∨ s'.Buffered a ∨ s'.Expired a := by
  intro a ha
  rcases h.kept a ha with (hframe | ⟨row, hrow, f, hf, hcar⟩) | ⟨row, hrow, hin⟩ | ⟨row, hrow, hexp⟩
  · exact .inl (.inl (hacked hframe))
  · exact .inl (.inr ⟨row, hrow, f, hacked hf, hcarr hcar⟩)
  · rcases hbuffer row hin with hin | hexp | ⟨f, hf, hcar⟩
    · exact .inr (.inl ⟨row, hrow, hin⟩)
    · exact .inr (.inr ⟨row, hrow, hexp⟩)
    · exact .inl (.inr ⟨row, hrow, f, hf, hcar⟩)
  · exact .inr (.inr ⟨row, hrow, Nat.le_trans hexp hnow⟩)

variable {i : ℕ}

theorem Sound.setThread (h : Sound s) (hthr : ThreadOk s.acked s.carried s.channel thread) :
    Sound (s.setThread i thread) :=
  { h with threads := forall_set h.threads hthr }

theorem Sound.setIdle (h : Sound s) (hidle : thread.idle = true) : Sound (s.setThread i thread) :=
  h.setThread (threadOk_of_idle hidle)

theorem Sound.setBuffer {buffer : OfflineBuffer} (h : Sound s)
    (hbuffer : ∀ row ∈ s.buffer.rows, row ∈ buffer.rows ∨ row.expiresAt ≤ s.now ∨
      ∃ f ∈ s.acked, (f, row.id) ∈ s.carried) : Sound { s with buffer := buffer } :=
  { h with kept := h.kept_mono (fun _ hf => hf) (fun _ hf => hf) le_rfl hbuffer }

theorem Sound.setChannel {pending : List ID} (h : Sound s)
    (hframe : ∀ id frame, channel id = some frame → frame.type = .error ∨ id ∈ s.acked)
    (hansw : ∀ thread ∈ s.threads, ∀ id ∈ thread.unanswered, channel id ≠ none →
      s.channel id ≠ none ∨ id ∈ s.acked) :
    Sound { s with channel := channel, pending := pending } := by
  refine ⟨h.kept, hframe, h.toAnt, ?_⟩
  intro thread hthr
  exact (h.threads thread hthr).mono (fun _ hf => hf) (fun _ hf => hf) (hansw thread hthr)

theorem Sound.grow {toAnt : List WSFrame}
    (h : Sound s) (hacked : s.acked ⊆ acked) (hcarr : s.carried ⊆ carried)
    (htoAnt : ∀ frame ∈ toAnt, frame.id ∈ acked) :
    Sound { s with acked := acked, carried := carried, toAnt := toAnt } := by
  refine ⟨?_, ?_, htoAnt, ?_⟩
  · exact h.kept_mono hacked hcarr le_rfl fun row hrow => .inl hrow
  · intro id frame hframe
    exact (h.channel id frame hframe).imp_right fun hid => hacked hid
  · intro thread hthr
    exact (h.threads thread hthr).mono hacked hcarr fun id _ hsome => .inl hsome

section Call

variable {i : ℕ} {caller : Caller} {frame : WSFrame} {stage stage' : Stage}
  {acked : List ID} {carried : List (ID × ℕ)} {channel : ID → Option WSFrame}

theorem threadOk_send
    (hfin : ∀ resp, stage = .finish (some resp) → resp.type ≠ .error → frame.id ∈ acked) :
    ThreadOk acked carried channel (.call .send frame stage) where
  removes _ _ heq := Thread.noConfusion heq
  sent _ resp heq hne := by
    cases heq
    exact hfin resp rfl hne
  carries _ _ _ _ heq := by cases heq
  drained _ _ _ _ heq := by cases heq
  answered _ hid := by cases hid

theorem threadOk_drain (hcarr : (frame.id, m.id) ∈ carried)
    (hfin : ∀ resp, stage = .finish (some resp) → frame.id ∈ acked)
    (hansw : ∀ id ∈ (Thread.call (.drain m rest) frame stage).unanswered,
      channel id ≠ none → id ∈ acked) :
    ThreadOk acked carried channel (.call (.drain m rest) frame stage) where
  removes _ _ heq := Thread.noConfusion heq
  sent _ _ heq := by cases heq
  carries _ _ _ _ heq := by
    cases heq
    exact hcarr
  drained _ _ _ resp heq := by
    cases heq
    exact hfin resp rfl
  answered := hansw

section

variable (h : ThreadOk acked carried channel (.call caller frame stage))
include h

theorem ThreadOk.advance (hstage : ∀ resp, stage' = .finish (some resp) → False)
    (hansw : ∀ id ∈ (Thread.call caller frame stage').unanswered, channel id ≠ none →
      id ∈ acked) : ThreadOk acked carried channel (.call caller frame stage') := by
  cases caller with
  | send => exact threadOk_send fun resp heq => (hstage resp heq).elim
  | drain m rest =>
    exact threadOk_drain (h.carries m rest frame stage rfl)
      (fun resp heq => (hstage resp heq).elim) hansw

theorem ThreadOk.giveUp : ThreadOk acked carried channel (.call caller frame (.finish none)) := by
  refine h.advance nofun ?_
  intro id hid
  cases caller <;> cases hid

end

theorem Sound.updateChannel {frameID : ID} {answer : Option WSFrame} (h : Sound s)
    (hanswer : answer ≠ none → frameID ∈ s.acked) (pending : List ID) :
    Sound { s with channel := update s.channel frameID answer, pending := pending } := by
  refine h.setChannel ?_ ?_
  · intro id resp hresp
    rw [update_apply] at hresp
    split at hresp
    · next hid => exact .inr (hid ▸ hanswer (hresp ▸ Option.some_ne_none resp))
    · exact h.channel id resp hresp
  · intro _ _ id _ hsome
    rw [update_apply] at hsome
    split at hsome
    · next hid => exact .inr (hid ▸ hanswer hsome)
    · exact .inl hsome

theorem Sound.clearChannel (h : Sound s) (frameID : ID) (pending : List ID) :
    Sound { s with channel := update s.channel frameID none, pending := pending } :=
  h.updateChannel (absurd rfl) pending

theorem sound_register (h : Sound s) (hmem : .call caller frame .register ∈ s.threads)
    (hs : s.runCall i caller frame .register = some s') : Sound s' := by
  cases hs
  have h' := h.clearChannel frame.id (frame.id :: s.pending)
  refine h'.setThread ((h'.threads _ hmem).advance nofun ?_)
  -- the channel of the call is new
  intro id hid hsome
  cases caller with
  | send => cases hid
  | drain =>
    cases hid
    exact absurd (update_self ..) hsome

theorem sound_await (h : Sound s) (hmem : .call caller frame .await ∈ s.threads)
    (hs : s.runCall i caller frame .await = some s') : Sound s' := by
  simp only [runCall] at hs
  split at hs <;> cases hs
  next resp hresp =>
  have hok := h.threads _ hmem
  refine (h.clearChannel frame.id s.pending).setThread ?_
  cases caller with
  | send =>
    refine threadOk_send ?_
    intro _ heq hne
    cases heq
    exact (h.channel _ _ hresp).resolve_left hne
  | drain m rest =>
    have hanswer : frame.id ∈ s.acked :=
      hok.answered frame.id rfl (hresp ▸ Option.some_ne_none resp)
    refine threadOk_drain (hok.carries m rest frame .await rfl) (fun _ _ => hanswer) ?_
    intro id hid
    cases hid

def AllAnswered (s : State) : Prop :=
  ∀ other ∈ s.threads, ∀ id ∈ other.unanswered, id ∈ s.pending → s.channel id ≠ none

theorem Sound.failPending (h : Sound s) (hok : AllAnswered s) : Sound s.failPending := by
  refine h.setChannel ?_ ?_
  · intro id resp hresp
    split at hresp
    · cases hresp
      exact .inl rfl
    · exact h.channel id resp hresp
  · intro thread hthr id hid hsome
    split at hsome
    · next hpend => exact absurd hpend.2 (hok thread hthr id hid hpend.1)
    · exact .inl hsome

theorem sound_finish {resp : Option WSFrame} (h : Sound s)
    (hmem : .call caller frame (.finish resp) ∈ s.threads)
    (hs : s.runCall i caller frame (.finish resp) = some s') : Sound s' := by
  have hok := h.threads _ hmem
  have h' : Sound { s with pending := s.pending.filter (· ≠ frame.id) } :=
    { h with }
  cases caller with
  | send =>
    cases resp with
    | none =>
      cases hs
      exact h'.setIdle rfl
    | some resp =>
      simp only [runCall] at hs
      split at hs <;> cases hs
      · exact h'.setIdle rfl
      next hne =>
      have hacked := hok.sent frame resp rfl hne
      refine Sound.setIdle { h with kept := ?_ } rfl
      exact forall_mem_cons.mpr ⟨.inl (.inl hacked), h.kept⟩
  | drain m rest =>
    cases resp with
    | none =>
      cases hs
      exact h'.setIdle rfl
    | some resp =>
      cases hs
      exact h'.setThread (threadOk_remove ⟨frame.id, hok.drained m rest frame resp rfl,
        hok.carries m rest frame _ rfl⟩)

theorem sound_runCall (h : Sound s) (hmem : .call caller frame stage ∈ s.threads)
    (hok : (Thread.call caller frame stage).failsPending = true → AllAnswered s)
    (hs : s.runCall i caller frame stage = some s') : Sound s' := by
  cases stage with
  | register => exact sound_register h hmem hs
  | write =>
    have hthr := h.threads _ hmem
    simp only [runCall] at hs
    split at hs <;> cases hs
    · refine h.setThread (hthr.advance nofun ?_)
      cases caller <;> exact hthr.answered
    · exact h.setThread hthr.giveUp
  | writing =>
    cases hs
    have hthr := h.threads _ hmem
    refine Sound.setThread { h with } (hthr.advance nofun ?_)
    cases caller <;> exact hthr.answered
  | reset =>
    cases hs
    have h' := h.failPending (hok rfl)
    exact h'.setThread (h'.threads _ hmem).giveUp
  | await => exact sound_await h hmem hs
  | finish => exact sound_finish h hmem hs

end Call

theorem sound_prune (s : State) (row : BufferedMessage) (hrow : row ∈ s.buffer.rows) :
    row ∈ (s.buffer.pruneExpired s.now).rows ∨ row.expiresAt ≤ s.now ∨
      ∃ f ∈ s.acked, (f, row.id) ∈ s.carried := by
  by_cases hexp : s.now < row.expiresAt
  · exact .inl (mem_filter.mpr ⟨hrow, by simpa using hexp⟩)
  · exact .inr (.inl (Nat.le_of_not_lt hexp))

theorem sound_runThread (h : Sound s) (hmem : thread ∈ s.threads)
    (hok : thread.failsPending = true → AllAnswered s)
    (hs : s.runThread wsCfg i thread = some s') : Sound s' := by
  cases thread with
  | send =>
    simp only [runThread] at hs
    split at hs <;> cases hs
    · exact h.setThread (threadOk_send nofun)
    · exact h.setIdle rfl
  | enqueue frame =>
    simp only [runThread] at hs
    split at hs <;> cases hs
    · exact h.setIdle rfl
    next buffer henq =>
    unfold OfflineBuffer.enqueue at henq
    split at henq <;> cases henq
    have h' : Sound { s with
        buffer := s.buffer.insert wsCfg.bufferTTL s.now frame.topic frame.payload
          frame.properties } :=
      h.setBuffer fun row hrow => .inl (mem_append_left _ hrow)
    refine Sound.setIdle { h' with kept := ?_ } rfl
    -- the new row is in the buffer
    refine forall_mem_cons.mpr ⟨.inr (.inl ⟨_, rfl, ?_⟩), h'.kept⟩
    exact mem_append_right _ (mem_singleton_self _)
  | dequeueAll =>
    cases hs
    refine (h.setBuffer (sound_prune s)).setIdle ?_
    split <;> rfl
  | drain msgs =>
    cases msgs with
    | nil =>
      cases hs
      exact h.setIdle rfl
    | cons m =>
      simp only [runThread] at hs
      split at hs <;> cases hs
      · have h' := h.grow (List.Subset.refl _) (subset_cons_self (s.nextID, m.id) _) h.toAnt
        refine Sound.setThread { h' with } ?_
        refine threadOk_drain mem_cons_self nofun ?_
        intro id hid
        cases hid
      · exact h.setIdle rfl
  | remove m rest =>
    cases hs
    obtain ⟨f, hf, hcarr⟩ := (h.threads _ hmem).removes m rest rfl
    refine (h.setBuffer ?_).setIdle rfl
    intro row hrow
    by_cases hid : row.id = m.id
    · exact .inr (.inr ⟨f, hf, hid ▸ hcarr⟩)
    · exact .inl (mem_filter.mpr ⟨hrow, by simpa using hid⟩)
  | call => exact sound_runCall h hmem hok hs
  | lost =>
    cases hs
    exact (h.failPending (hok rfl)).setIdle rfl
  | done => cases hs

theorem sound_failThread (h : Sound s) (hmem : thread ∈ s.threads)
    (hs : s.failThread i thread = some s') : Sound s' := by
  cases thread with
  | enqueue | remove =>
    cases hs
    exact h.setIdle rfl
  | dequeueAll =>
    cases hs
    exact (h.setBuffer (sound_prune s)).setIdle rfl
  | call caller frame stage =>
    have hthr := h.threads _ hmem
    cases stage with
    | writing =>
      cases hs
      refine Sound.setThread { h with } (hthr.advance nofun ?_)
      intro id hid
      cases caller <;> cases hid
    | await =>
      cases hs
      exact h.setThread hthr.giveUp
    | _ => cases hs
  | _ => cases hs

theorem Sound.spawn (h : Sound s) (hidle : thread.idle = true) :
    ∀ other ∈ s.threads ++ [thread], ThreadOk s.acked s.carried s.channel other := by
  refine forall_mem_append.mpr ⟨h.threads, forall_mem_singleton.mpr ?_⟩
  exact threadOk_of_idle hidle

theorem sound_dispatchFrame {frame : WSFrame} (h : Sound s) (hframe : frame.id ∈ s.acked) :
    Sound (s.dispatchFrame frame) := by
  have hanswer := h.updateChannel (fun _ : some frame ≠ none => hframe) s.pending
  unfold dispatchFrame
  split
  case h_5 => exact h
  all_goals
    split
    · exact hanswer
    · exact h

theorem sound_step {action : Action} (h : Sound s) (hok : DrainsAnswered s action)
    (hs : step config wsCfg s action = some s') : Sound s' := by
  cases action with
  | send =>
    simp only [step] at hs
    split at hs <;> cases hs
    exact { h with threads := h.spawn rfl }
  | run =>
    obtain ⟨thread, hget, hs⟩ := Option.bind_eq_some_iff.mp hs
    exact sound_runThread h (mem_of_get hget) (hok thread hget) hs
  | fail =>
    obtain ⟨thread, hget, hs⟩ := Option.bind_eq_some_iff.mp hs
    exact sound_failThread h (mem_of_get hget) hs
  | loseConnection =>
    cases hs
    exact { h with threads := h.spawn rfl }
  | connect =>
    simp only [step] at hs
    split at hs <;> cases hs
    exact { h with threads := h.spawn rfl }
  | receive =>
    simp only [step] at hs
    split at hs
    · cases hs
    next frame hget =>
    split at hs
    · cases hs
      exact { h with }
    cases hs
    have htoAnt : ∀ f ∈ s.toAnt ++ [newAckFrame frame.id], f.id ∈ frame.id :: s.acked := by
      refine forall_mem_append.mpr ⟨?_, forall_mem_singleton.mpr mem_cons_self⟩
      exact fun f hf => mem_cons_of_mem _ (h.toAnt f hf)
    exact { h.grow (subset_cons_self _ _) (List.Subset.refl _) htoAnt with }
  | dispatch j =>
    obtain ⟨frame, hget, rfl⟩ := Option.map_eq_some_iff.mp hs
    have h' : Sound { s with toAnt := s.toAnt.eraseIdx j } :=
      { h with toAnt := forall_eraseIdx h.toAnt }
    exact sound_dispatchFrame h' (h.toAnt frame (mem_of_get hget))
  | dropToServer =>
    cases hs
    exact { h with }
  | dropToAnt =>
    cases hs
    exact { h with toAnt := forall_eraseIdx h.toAnt }
  | tick =>
    cases hs
    refine { h with kept := ?_ }
    exact h.kept_mono (fun _ hf => hf) (fun _ hf => hf) (Nat.le_succ _) fun row hrow => .inl hrow

/-- In every run in which no connection is lost while a `drainBuffer` waits for an answer, every
message for which `Send` returned success is acknowledged, in the buffer or expired. -/
theorem kept_of_drainsAnswered (h : (system config wsCfg).ReachableWith DrainsAnswered s) :
    Kept s := by
  have hsound : Sound s :=
    h.invariant (fun _ hs => hs ▸ sound_initial) fun _ _ _ => sound_step
  exact hsound.kept

def bufferAndPublish : List Action :=
  [.send "events" [0] ∅, .run 0, .run 0, .connect, .run 1, .run 1, .run 1, .run 1, .run 1]

def drainAndLose : List Action :=
  bufferAndPublish ++
    [.receive 0 false, .dispatch 0, .loseConnection, .run 2, .run 1, .run 1, .run 1]

theorem kept_drainAndLose : ∃ s, (system ⟨1000, 256, 1⟩ ⟨10, 60⟩).ReachableWith DrainsAnswered s ∧
      (s.accepted.length = 1 ∧ s.buffer.rows.length = 0 ∧ s.now < 60) ∧ Kept s := by
  obtain ⟨s, hreach, hs⟩ := TransitionSystem.exists_reachableWith
    (S := system ⟨1000, 256, 1⟩ ⟨10, 60⟩) DrainsAnswered
    (fun s => s.accepted.length = 1 ∧ s.buffer.rows.length = 0 ∧ s.now < 60) drainAndLose rfl
    (by decide)
  exact ⟨s, hreach, hs, kept_of_drainsAnswered hreach⟩

def loseAndDrain : List Action :=
  bufferAndPublish ++ [.loseConnection, .dropToServer 0, .run 2, .run 1, .run 1, .run 1]

theorem not_kept_loseAndDrain : ∃ s, (system ⟨1000, 256, 1⟩ ⟨10, 60⟩).Reachable s ∧ ¬ Kept s :=
  TransitionSystem.exists_reachableWith _ _ loseAndDrain rfl (by decide)

end Formicary.Queue.Offline

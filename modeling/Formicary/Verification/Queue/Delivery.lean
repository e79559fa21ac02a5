import Formicary.Library.Pool
import Formicary.Model.Queue.WebSocketAnt
import Formicary.Verification.Queue.Topics

/-! # How often an ant's subscriber gets a message

The queen sends a message once for every subscription that the server has of the connection, and the
ant hands each of these frames to all its subscribers of the topic. -/

namespace Formicary.Queue.Delivery

open WSServer State List Nat FinMap Option

variable {config : QueueConfig} {s s' : State}

/-- How often a message has called the callback of a subscriber. -/
def State.calls (s : State) (message subscriber : ID) : ℕ :=
  s.log.countP fun e => e.message == message && e.subscriber == subscriber

/-- No message calls a callback twice, and none calls that of a subscriber that has left. -/
structure DeliveredOnce (s : State) : Prop where
  once : ∀ message subscriber, s.calls message subscriber ≤ 1
  registered : ∀ e ∈ s.log, e.registered = true

/-- The server records a subscription where the topic has none of the connection yet, and a
subscriber does not leave while a delivery has yet to come to it. -/
def SingleSubscription (s : State) : Action → Prop
  | .record => ∀ h ∈ s.handling, (s.server.objects h.1).remoteSubs.size = 0
  | .unSubscribe _ id => ∀ d ∈ s.delivering, ∀ e ∈ d.remaining, e.1 ≠ id
  | _ => True

instance (s : State) : DecidablePred (SingleSubscription s) := fun a => by
  cases a <;> dsimp only [SingleSubscription] <;> infer_instance

def carries (message : ID) (frame : WSFrame) : Bool :=
  frame.type == .publish && frame.id == message

def State.due (s : State) (message subscriber : ID) : ℕ :=
  match s.delivering with
  | none => 0
  | some d => if d.event.id = message then d.remaining.countP fun e => e.1 == subscriber else 0

def State.underWay (s : State) (message : ID) : ℕ :=
  s.toAnt.countP (carries message) + s.sendCh.countP (carries message) +
    s.outgoing.countP (carries message) + s.sending.countP fun call => carries message call.2

def State.budget (s : State) (message subscriber : ID) : ℕ :=
  s.calls message subscriber + s.due message subscriber + s.underWay message

structure Accounted (s : State) : Prop where
  remotes : ∀ ref, (s.server.objects ref).remoteSubs.size ≤ 1
  remaining : ∀ d ∈ s.delivering, ∀ e ∈ d.remaining, (s.subs.lookup e.1).isSome = true
  registered : ∀ e ∈ s.log, e.registered = true
  /-- a message that has not been sent yet calls nobody -/
  unsent : ∀ message subscriber, s.nextID ≤ message → s.budget message subscriber = 0
  once : ∀ message subscriber, s.budget message subscriber ≤ 1

theorem Accounted.deliveredOnce (h : Accounted s) : DeliveredOnce s := by
  refine ⟨?_, h.registered⟩
  intro message subscriber
  have honce := h.once message subscriber
  unfold budget at honce
  omega

theorem accounted_initial : Accounted initial := by
  refine ⟨fun _ => zero_le 1, ?_, ?_, fun _ _ _ => rfl, fun _ _ => zero_le 1⟩
  · intro d hd
    cases hd
  · intro e he
    cases he

theorem Accounted.of_budget_le (h : Accounted s)
    (hrems : ∀ ref, (s'.server.objects ref).remoteSubs.size ≤ 1)
    (hrem : ∀ d ∈ s'.delivering, ∀ e ∈ d.remaining, (s'.subs.lookup e.1).isSome = true)
    (hreg : ∀ e ∈ s'.log, e.registered = true) (hnext : s.nextID ≤ s'.nextID)
    (hle : ∀ message subscriber, s'.budget message subscriber ≤ s.budget message subscriber) :
    Accounted s' := by
  refine ⟨hrems, hrem, hreg, ?_, ?_⟩
  · intro message subscriber hmsg
    have hzero := h.unsent message subscriber (le_trans hnext hmsg)
    exact eq_zero_of_le_zero (hzero ▸ hle message subscriber)
  · intro message subscriber
    exact le_trans (hle message subscriber) (h.once message subscriber)

section Remotes

variable {srv : WSServer} (h : ∀ ref, (srv.objects ref).remoteSubs.size ≤ 1)
include h

theorem remotes_getOrCreateTopic (name : String) (ref : ℕ) :
    ((srv.getOrCreateTopic name).2.objects ref).remoteSubs.size ≤ 1 := by
  rcases srv.getOrCreateTopic_cases name with ⟨_, _, heq⟩ | ⟨_, heq⟩
  · rw [heq]
    exact h ref
  rw [heq]
  simp only [Function.update_apply]
  split
  · exact zero_le 1
  · exact h ref

theorem remotes_run (call : LocalSection) (ref : ℕ) :
    ((call.run srv).objects ref).remoteSubs.size ≤ 1 := by
  cases call
  case getOrCreateTopic name => exact remotes_getOrCreateTopic h name ref
  case unSubscribe topic id =>
    rw [LocalSection.run, remoteSubs_unSubscribe]
    exact h ref
  all_goals
    simp only [LocalSection.run, addSubscriber, recordLocal, contextDone, objects_modify]
    split <;> exact h _

theorem remotes_recordRemote (rs : WSRemoteSub) {ref : ℕ}
    (hnone : (srv.objects ref).remoteSubs.size = 0) (ref' : ℕ) :
    ((srv.recordRemote ref rs).objects ref').remoteSubs.size ≤ 1 := by
  rw [recordRemote, objects_modify]
  split
  · refine le_trans size_insert_le ?_
    rw [hnone]
  · exact h ref'

theorem remotes_removeRemote (topic : String) (subID : ID) (ref : ℕ) :
    ((srv.removeRemote topic subID).objects ref).remoteSubs.size ≤ 1 := by
  unfold removeRemote
  split
  · exact h ref
  next ref' _ =>
  rw [objects_modify]
  split
  · exact le_trans size_erase_le (h ref')
  · exact h ref

end Remotes

theorem budget_push_le (s : State) (frame : WSFrame) (message subscriber : ID) :
    (s.push frame).budget message subscriber ≤
      s.budget message subscriber + if carries message frame then 1 else 0 := by
  unfold push
  split
  · have hcount : (s.sendCh ++ [frame]).countP (carries message) =
        s.sendCh.countP (carries message) + if carries message frame then 1 else 0 := by
      rw [countP_append, countP_singleton]
    simp only [budget, calls, due, underWay, hcount]
    omega
  · exact le_add_right _ _

variable {frame : WSFrame}

theorem Accounted.push {t : State} (h : Accounted s)
    (hrems : ∀ ref, (t.server.objects ref).remoteSubs.size ≤ 1) (hsubs : t.subs = s.subs)
    (hdeliv : t.delivering = s.delivering) (hlog : t.log = s.log) (hnext : s.nextID ≤ t.nextID)
    (hle : ∀ message subscriber, t.budget message subscriber +
      (if carries message frame then 1 else 0) ≤ s.budget message subscriber) :
    Accounted (t.push frame) := by
  have hsame : ∀ {β : Type} (g : State → β), (∀ sendCh, g { t with sendCh := sendCh } = g t) →
      g (t.push frame) = g t := by
    intro β g hg
    unfold State.push
    split
    · exact hg _
    · rfl
  refine h.of_budget_le ?_ ?_ ?_ ?_ ?_
  · rw [hsame server fun _ => rfl]
    exact hrems
  · rw [hsame delivering fun _ => rfl, hsame subs fun _ => rfl, hsubs, hdeliv]
    exact h.remaining
  · rw [hsame log fun _ => rfl, hlog]
    exact h.registered
  · rw [hsame nextID fun _ => rfl]
    exact hnext
  · intro message subscriber
    exact le_trans (budget_push_le t frame message subscriber) (hle message subscriber)

theorem dispatchFrame_of_not_publish (h : Accounted s)
    (hframe : frame.type ≠ .publish) : Accounted (s.dispatchFrame frame) := by
  have hansw : ∀ pending subsByServerID, Accounted { s with pending, subsByServerID } :=
    fun _ _ => { h with }
  unfold dispatchFrame
  split
  · contradiction
  all_goals try exact h
  -- the answers, each of which may find the subscription or not
  all_goals
    split
    · exact h
    · split <;> exact hansw _ _

theorem countP_subscribersOf_le (s : State) (frame : WSFrame) (subscriber : ID) :
    ((s.subscribersOf frame).countP fun e => e.1 == subscriber) ≤ 1 := by
  unfold subscribersOf
  dsimp only
  split
  · exact countP_le_length
  have hnodup : ((s.subs.entries.filter fun e => e.2.topic == frame.topic).map Sigma.fst).Nodup :=
    s.subs.nodupKeys.sublist filter_sublist
  have hcount := nodup_iff_count_le_one.mp hnodup subscriber
  rwa [List.count, countP_map] at hcount

theorem isSome_of_mem_subscribersOf {e : Σ _ : ID, AntLocalSub}
    (he : e ∈ s.subscribersOf frame) : (s.subs.lookup e.1).isSome = true := by
  unfold subscribersOf at he
  dsimp only at he
  split at he
  · next e' hfound =>
    rw [mem_singleton.mp he]
    obtain ⟨subID, _, hfound⟩ := bind_eq_some_iff.mp hfound
    obtain ⟨localID, _, hfound⟩ := bind_eq_some_iff.mp hfound
    obtain ⟨sub, hsub, hfound⟩ := bind_eq_some_iff.mp hfound
    cases hfound
    exact isSome_iff_exists.mpr ⟨sub, hsub⟩
  · have hlook := lookup_eq_some_iff_mem.mpr (mem_of_mem_filter he)
    exact isSome_iff_exists.mpr ⟨e.2, hlook⟩

theorem accounted_subscribe {opts : SubscribeOptions} (h : Accounted s)
    (hs : step config s (.subscribe opts) = some s') : Accounted s' := by
  simp only [step] at hs
  split at hs <;> cases hs
  refine h.of_budget_le h.remotes ?_ h.registered (le_succ _) fun _ _ => le_rfl
  intro d hd e he
  rw [lookup_insert_eq]
  split
  · rfl
  · exact h.remaining d hd e he

variable {id : ID}

theorem accounted_unSubscribe {topic : String} (h : Accounted s)
    (hok : ∀ d ∈ s.delivering, ∀ e ∈ d.remaining, e.1 ≠ id) :
    Accounted (s.unSubscribe topic id) := by
  unfold State.unSubscribe
  split
  · exact h
  have hrem : ∀ d ∈ s.delivering, ∀ e ∈ d.remaining,
      ((s.subs.erase id).lookup e.1).isSome = true := by
    intro d hd e he
    rw [lookup_erase_eq, if_neg (hok d hd e he)]
    exact h.remaining d hd e he
  split
  · exact h.of_budget_le h.remotes hrem h.registered le_rfl fun _ _ => le_rfl
  · exact h.of_budget_le h.remotes hrem h.registered (le_succ _) fun _ _ => le_rfl

theorem due_of_idle (hidle : ∀ event e es, s.delivering ≠ some ⟨event, e :: es⟩)
    (message subscriber : ID) : s.due message subscriber = 0 := by
  unfold due
  split
  · rfl
  next d hd =>
  obtain ⟨event, remaining⟩ := d
  cases remaining with
  | nil => simp
  | cons e es => exact absurd hd (hidle event e es)

variable {rest : List WSFrame}

theorem accounted_read (h : Accounted s) (htoAnt : s.toAnt = frame :: rest)
    (hidle : ∀ message subscriber, s.due message subscriber = 0) :
    Accounted (dispatchFrame { s with toAnt := rest } frame) := by
  have hrest : ∀ message, s.toAnt.countP (carries message) =
      rest.countP (carries message) + if carries message frame then 1 else 0 := by
    intro message
    rw [htoAnt, countP_cons]
  by_cases hframe : frame.type = .publish
  · have hdispatch : dispatchFrame { s with toAnt := rest } frame = { s with
          toAnt := rest
          delivering := some ⟨⟨frame.id, frame.topic, frame.payload, frame.properties⟩,
            s.subscribersOf frame⟩ } := by
      simp only [dispatchFrame, hframe]
      rfl
    rw [hdispatch]
    refine h.of_budget_le h.remotes ?_ h.registered le_rfl ?_
    · intro d hd e he
      cases hd
      exact isSome_of_mem_subscribersOf he
    · intro message subscriber
      have hcount := countP_subscribersOf_le s frame subscriber
      have hcarries : carries message frame = true ↔ frame.id = message := by
        simp [carries, hframe]
      simp only [budget, calls, underWay, hidle, hrest, hcarries]
      simp only [due]
      split <;> omega
  · refine dispatchFrame_of_not_publish ?_ hframe
    refine h.of_budget_le h.remotes h.remaining h.registered le_rfl ?_
    simp only [budget, calls, due, underWay, hrest]
    omega

variable {i j : ℕ}

section

variable (h : Accounted s)
include h

theorem accounted_deliver (hs : step config s (.deliver j) = some s') : Accounted s' := by
  simp only [step] at hs
  split at hs
  · cases hs
  next event remaining hdeliv =>
  have hrem := h.remaining ⟨event, remaining⟩ hdeliv
  have hrest : ∀ d ∈ some (Delivering.mk event (remaining.eraseIdx j)), ∀ e ∈ d.remaining,
      (s.subs.lookup e.1).isSome = true := by
    rintro d ⟨⟩ e he
    exact hrem e (mem_of_mem_eraseIdx he)
  split at hs
  · cases hs
  next id sub hget =>
  have hcount : ∀ subscriber, _ := fun subscriber =>
    Pool.countP_eraseIdx (fun e => e.1 == subscriber) hget
  simp only [beq_iff_eq] at hcount
  split at hs <;> cases hs
  · refine h.of_budget_le h.remotes hrest ?_ le_rfl ?_
    · exact forall_mem_cons.mpr ⟨hrem _ (Pool.mem_of_get hget), h.registered⟩
    intro message subscriber
    simp only [budget, calls, due, underWay, hdeliv, countP_cons, Bool.and_eq_true, beq_iff_eq,
      ← hcount subscriber]
    by_cases hid : event.id = message <;> simp only [hid, if_true, if_false, true_and, false_and]
    all_goals omega
  · refine h.of_budget_le h.remotes hrest h.registered le_rfl ?_
    intro message subscriber
    simp only [budget, calls, due, underWay, hdeliv, ← hcount subscriber]
    split <;> omega

theorem accounted_send {topic : String} {payload : List UInt8} {props : MessageHeaders}
    (hs : step config s (.send topic payload props) = some s') :
    Accounted s' := by
  simp only [step] at hs
  split at hs
  · cases hs
  have hbudget : ∀ message subscriber, s'.budget message subscriber =
      s.budget message subscriber + if s.nextID = message then 1 else 0 := by
    cases hs
    simp only [budget, calls, due, underWay, countP_cons, carries,
      newPublishFrame, beq_self_eq_true, Bool.true_and, beq_iff_eq]
    omega
  cases hs
  refine ⟨remotes_getOrCreateTopic h.remotes topic, h.remaining, h.registered, ?_, ?_⟩
  · intro message subscriber hle
    rw [hbudget, h.unsent message subscriber (le_of_succ_le hle), if_neg (ne_of_lt hle)]
  intro message subscriber
  rw [hbudget]
  split
  · next heq => rw [h.unsent message subscriber (le_of_eq heq)]
  · exact h.once message subscriber

theorem accounted_collect (hs : step config s (.collect i) = some s') : Accounted s' := by
  simp only [step] at hs
  split at hs <;> cases hs
  next ref frame hget =>
  refine h.of_budget_le h.remotes h.remaining h.registered le_rfl ?_
  intro message subscriber
  have hsending : ((s.sending.eraseIdx i).countP fun call => carries message call.2) +
      (if carries message frame then 1 else 0) =
        s.sending.countP fun call => carries message call.2 := Pool.countP_eraseIdx _ hget
  have hsize := h.remotes ref
  have hframes : ((s.server.objects ref).remoteSubs.values.map fun _ => frame).countP
      (carries message) ≤ if carries message frame then 1 else 0 := by
    split
    · refine le_trans countP_le_length ?_
      simpa [values, FinMap.size] using hsize
    · next hnot => simp [hnot]
  simp only [budget, calls, due, underWay, countP_append]
  omega

theorem accounted_enqueue (hget : s.outgoing[i]? = some frame) :
    Accounted (push { s with outgoing := s.outgoing.eraseIdx i } frame) := by
  refine h.push h.remotes rfl rfl rfl le_rfl ?_
  intro message subscriber
  have hcount := Pool.countP_eraseIdx (carries message) hget
  simp only [budget, calls, due, underWay]
  omega

theorem accounted_write (hsendCh : s.sendCh = frame :: rest) :
    Accounted { s with sendCh := rest, toAnt := s.toAnt ++ [frame] } := by
  refine h.of_budget_le h.remotes h.remaining h.registered le_rfl ?_
  simp only [budget, calls, due, underWay, hsendCh, countP_append, countP_cons, countP_nil]
  omega

theorem accounted_step {action : Action} (hok : SingleSubscription s action)
    (hs : step config s action = some s') : Accounted s' := by
  cases action with
  | subscribe => exact accounted_subscribe h hs
  | sendSubscribe =>
    simp only [step] at hs
    split at hs
    · cases hs
    split at hs
    · cases hs
      exact { h with }
    cases hs
    exact h.of_budget_le h.remotes h.remaining h.registered (le_succ _) fun _ _ => le_rfl
  | timeout =>
    cases hs
    exact { h with }
  | unSubscribe =>
    cases hs
    exact accounted_unSubscribe h hok
  | read =>
    simp only [step] at hs
    split at hs
    · cases hs
    · cases hs
    next frame rest htoAnt hbusy =>
    cases hs
    exact accounted_read h htoAnt (due_of_idle hbusy)
  | deliver => exact accounted_deliver h hs
  | handle =>
    simp only [step] at hs
    split at hs
    · split at hs
      · cases hs
        exact h.of_budget_le (remotes_getOrCreateTopic h.remotes _) h.remaining h.registered
          le_rfl fun _ _ => le_rfl
      · cases hs
        refine h.push ?_ rfl rfl rfl le_rfl fun _ _ => le_rfl
        split
        · exact h.remotes
        · exact remotes_removeRemote h.remotes _ _
      · cases hs
        exact { h with }
    · cases hs
  | record =>
    simp only [step] at hs
    split at hs <;> cases hs
    next ref frame hhandling =>
    exact h.push (remotes_recordRemote h.remotes _ (hok _ hhandling)) rfl rfl rfl (le_succ _)
      fun _ _ => le_rfl
  | send => exact accounted_send h hs
  | collect => exact accounted_collect h hs
  | enqueue =>
    simp only [step] at hs
    split at hs <;> cases hs
    next hget =>
    exact accounted_enqueue h hget
  | write =>
    simp only [step] at hs
    split at hs <;> cases hs
    next hsendCh =>
    exact accounted_write h hsendCh
  | queen call =>
    cases hs
    exact h.of_budget_le (remotes_run h.remotes call) h.remaining h.registered le_rfl
      fun _ _ => le_rfl

end

/-- In every run in which the server has one subscription of the connection on each topic, and
subscribers leave only when no delivery has yet to come to them, messages are delivered once. -/
theorem deliveredOnce_of_singleSubscription
    (h : (system config).ReachableWith SingleSubscription s) : DeliveredOnce s := by
  have hacct : Accounted s :=
    h.invariant (fun _ hs => hs ▸ accounted_initial) fun _ _ _ hs hok => accounted_step hs hok
  exact hacct.deliveredOnce

def oneSubscriber : List Action :=
  [.subscribe { topic := "events" }, .sendSubscribe 0 false, .handle, .record,
    .send "events" [0] ∅, .collect 0, .enqueue 0, .write, .write, .read, .read, .deliver 0]

theorem deliveredOnce_oneSubscriber :
    ∃ s, (system ⟨1000, 256, 1⟩).ReachableWith SingleSubscription s ∧ s.calls 3 0 = 1 ∧
      DeliveredOnce s := by
  obtain ⟨s, hreach, hcalls⟩ := TransitionSystem.exists_reachableWith (S := system ⟨1000, 256, 1⟩)
    SingleSubscription (fun s => s.calls 3 0 = 1) oneSubscriber rfl (by decide)
  exact ⟨s, hreach, hcalls, deliveredOnce_of_singleSubscription hreach⟩

def twoSubscribers : List Action :=
  [.subscribe { topic := "events" }, .sendSubscribe 0 false, .subscribe { topic := "events" },
    .sendSubscribe 0 false, .handle, .record, .handle, .record, .send "events" [0] ∅, .collect 0,
    .enqueue 0, .enqueue 0, .write, .write, .write, .write, .read, .read, .read, .deliver 0,
    .deliver 0, .read, .deliver 0, .deliver 0]

theorem not_deliveredOnce_twoSubscribers :
    ¬ ∀ s, (system ⟨1000, 256, 1⟩).Reachable s → DeliveredOnce s := by
  intro h
  obtain ⟨s, hreach, hcalls⟩ : ∃ s, (system ⟨1000, 256, 1⟩).Reachable s ∧ s.calls 6 0 = 2 :=
    TransitionSystem.exists_reachableWith _ (fun s : State => s.calls 6 0 = 2) twoSubscribers rfl
      (by decide)
  have honce := (h s hreach).once 6 0
  rw [hcalls] at honce
  exact absurd honce (by decide)

/-- A subscriber that leaves while a delivery is on its way to it is called afterwards. -/
example : ((system ⟨1000, 256, 1⟩).runWith (fun _ _ => True) State.initial
    [.subscribe { topic := "events" }, .sendSubscribe 0 false, .handle, .record,
      .send "events" [0] ∅, .collect 0, .enqueue 0, .write, .write, .read, .read,
      .unSubscribe "events" 0, .deliver 0]).any (fun s => s.log = [⟨3, 0, false⟩]) = true := by
  decide

end Formicary.Queue.Delivery

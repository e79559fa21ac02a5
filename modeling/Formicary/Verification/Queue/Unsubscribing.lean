import Formicary.Model.Queue.ChannelTopics

/-! # Which callbacks a notification calls

`Notify` goes through a copy of the subscribers in the order of a map, that is in any order, and
leaves the loop at the first callback that returns an error. -/

namespace Formicary.Queue.SendReceiveMultiplexer

open List

variable {event : MessageEvent} {reply : ID → Reply} {old : Bool} {mx : SendReceiveMultiplexer}
  {order : List (Σ _ : ID, CallBackCoRelation)}

def wanting (event : MessageEvent) (order : List (Σ _ : ID, CallBackCoRelation)) : List ID :=
  (order.filter fun e => e.2.wants event).map Sigma.fst

def reached (reply : ID → Reply) : List ID → List ID
  | [] => []
  | id :: ids => id :: if reply id = .ok then reached reply ids else []

def wants (mx : SendReceiveMultiplexer) (event : MessageEvent) (id : ID) : Bool :=
  (mx.lookup id).any fun next => next.wants event

/-- Every subscriber that wants the message gets it once, and nobody else does. -/
def Exact (mx : SendReceiveMultiplexer) (event : MessageEvent) (invoked : List ID) : Prop :=
  ∀ id, invoked.count id = if mx.wants event id then 1 else 0

theorem notify_invoked (order : List (Σ _ : ID, CallBackCoRelation)) (n : Notification) :
    (notify event reply old order n).invoked =
      n.invoked ++ reached reply (wanting event order) := by
  induction order generalizing n with
  | nil => simp [notify, wanting, reached]
  | cons e rest ih =>
    obtain ⟨id, next⟩ := e
    simp only [wanting, filter_cons, CallBackCoRelation.wants] at ih ⊢
    by_cases hid : next.correlationID = "" ∨ next.correlationID = event.coRelationID
    · by_cases hfilt : next.filter event = true
      · cases hreply : reply id <;> simp [notify, hid, hfilt, hreply, reached, ih]
      · simp [notify, hid, hfilt, ih]
    · simp [notify, hid, ih]

theorem reached_eq_self {ids : List ID} (h : ∀ id ∈ ids.dropLast, reply id = .ok) :
    reached reply ids = ids := by
  induction ids with
  | nil => rfl
  | cons id ids ih =>
    cases ids with
    | nil => simp [reached]
    | cons id' ids =>
      have hid : reply id = .ok := h id (by simp)
      have hrest : reached reply (id' :: ids) = id' :: ids := by
        apply ih
        intro i hi
        exact h i (by simp [dropLast_cons_cons, hi])
      rw [reached, if_pos hid, hrest]

theorem mem_wanting (h : order.Perm mx.cloneSubscribers) (id : ID) :
    id ∈ wanting event order ↔ mx.wants event id = true := by
  simp only [wanting, mem_map, mem_filter, wants, Option.any_eq_true]
  constructor
  · rintro ⟨⟨id, next⟩, ⟨hmem, hwants⟩, rfl⟩
    exact ⟨next, FinMap.lookup_eq_some_iff_mem.mpr (h.mem_iff.mp hmem), hwants⟩
  · rintro ⟨next, hlook, hwants⟩
    exact ⟨⟨id, next⟩, ⟨h.mem_iff.mpr (FinMap.lookup_eq_some_iff_mem.mp hlook), hwants⟩, rfl⟩

theorem nodup_wanting (h : order.Perm mx.cloneSubscribers) : (wanting event order).Nodup := by
  have hkeys : (order.map Sigma.fst).Nodup := (h.map Sigma.fst).nodup_iff.mpr mx.nodupKeys
  exact hkeys.sublist (filter_sublist.map _)

/-- A notification is exact in every order of the subscribers if and only if no callback stops the
loop while there may be another subscriber that wants the message. -/
theorem notify_exact_iff (mx : SendReceiveMultiplexer) (event : MessageEvent)
    (reply : ID → Reply) (old : Bool) :
    (∀ order, order.Perm mx.cloneSubscribers →
        Exact mx event (notify event reply old order {}).invoked) ↔
      ∀ id id', id' ≠ id → mx.wants event id = true → mx.wants event id' = true →
        reply id = .ok := by
  constructor
  · intro h id id' hne hid hid'
    obtain ⟨next, hlook, hwants⟩ := (Option.any_eq_true _ _).mp hid
    obtain ⟨front, rest, hent⟩ :=
      append_of_mem (FinMap.lookup_eq_some_iff_mem.mp hlook)
    -- an order in which the subscriber comes first
    have horder : (⟨id, next⟩ :: (front ++ rest)).Perm mx.cloneSubscribers := by
      rw [cloneSubscribers, hent]
      exact perm_middle.symm
    have hcount := h _ horder id'
    by_contra hstop
    simp [notify_invoked, wanting, hwants, reached, hstop, hid', hne.symm] at hcount
  · intro h order horder id
    have hnodup : (wanting event order).Nodup := nodup_wanting horder
    have hall : reached reply (wanting event order) = wanting event order := by
      apply reached_eq_self
      intro i hi
      have hne : wanting event order ≠ [] := ne_nil_of_mem (dropLast_subset _ hi)
      rw [← dropLast_append_getLast hne, nodup_append] at hnodup
      exact h i _ (hnodup.2.2 i hi _ (mem_singleton_self _)).symm
        ((mem_wanting horder i).mp (dropLast_subset _ hi))
        ((mem_wanting horder _).mp (getLast_mem hne))
    rw [notify_invoked, hall, nil_append, hnodup.count]
    simp only [mem_wanting horder]

def pair : SendReceiveMultiplexer :=
  add (AList.singleton 1 ⟨"", fun _ => true⟩) 0 "" fun _ => true

/-- The callback of the first one fails. -/
theorem starved_subscriber : ¬ Exact pair ⟨2, "topic", [1], ∅⟩ (notify ⟨2, "topic", [1], ∅⟩
      (fun id => if id = 0 then .error else .ok) false pair.cloneSubscribers {}).invoked := by
  intro h
  exact absurd (h 1) (by decide)

end Formicary.Queue.SendReceiveMultiplexer

/-! # Leaving a topic of the channel queue client

`UnSubscribe` takes a subscription out of the table of its topic and leaves its callback in the
multiplexer, which goes away with the topic when the last subscriber leaves. -/

namespace Formicary.Queue.ChannelTopics

open SendReceiveMultiplexer FinMap State AList Option

variable {config : QueueConfig} {s s' : State}

/-- No topic keeps the callback of a subscription that has ended. -/
def Clean (s : State) : Prop :=
  ∀ name, ∀ id ∈ (s.topic name).multiplexer, id ∉ s.ended

/-- Nobody unsubscribes before the other subscribers of the topic, unless the context of the
subscription has ended already. -/
def LastLeaves (s : State) : Action → Prop
  | .unSubscribe topic id =>
    id ∈ (s.topic topic).subscribers → id ∈ (s.topic topic).multiplexer →
      size ((s.topic topic).subscribers.erase id) = 0
  | _ => True

structure Inv (s : State) : Prop where
  fresh : ∀ id ∈ s.subscribed, id < s.nextID
  ended : ∀ id ∈ s.ended, id ∈ s.subscribed
  held : ∀ name, ∀ id ∈ (s.topic name).subscribers,
    ∃ opts, s.subscribed.lookup id = some opts ∧ opts.topic = name
  listed : ∀ id opts, s.subscribed.lookup id = some opts → id ∉ s.ended →
    id ∈ (s.topic opts.topic).subscribers
  callbacks : ∀ name id next, (s.topic name).multiplexer.lookup id = some next ↔
    ∃ opts, s.subscribed.lookup id = some opts ∧ s.isLive name id opts = true ∧ callBack opts = next

variable {name : String} {t : TopicChannel}

theorem topic_of_insert (h : s'.topics = s.topics.insert name t) (name' : String) :
    s'.topic name' = if name' = name then t else s.topic name' := by
  rw [topic, h, lookup_insert_eq]
  split <;> rfl

theorem topic_of_erase (h : s'.topics = s.topics.erase name) (name' : String) :
    s'.topic name' = if name' = name then ⟨∅, ∅⟩ else s.topic name' := by
  rw [topic, h, lookup_erase_eq]
  split <;> rfl

theorem inv_initial : Inv initial := by
  constructor <;> simp [initial, topic]

theorem Inv.clean (h : Inv s) : Clean s := by
  intro name id hid
  obtain ⟨next, hnext⟩ := isSome_iff_exists.mp (lookup_isSome.mpr hid)
  obtain ⟨opts, -, hlive, -⟩ := (h.callbacks name id next).mp hnext
  simp [isLive] at hlive
  exact hlive.2

theorem Inv.keep (h : Inv s) (name : String) {nextID : ID} (hnext : s.nextID ≤ nextID)
    (reports : List Report) :
    Inv { s with topics := s.topics.insert name (s.topic name), nextID, reports } := by
  have htopic : ∀ name', topic { s with
      topics := s.topics.insert name (s.topic name), nextID, reports } name' = s.topic name' := by
    intro name'
    rw [topic_of_insert (s := s) rfl]
    split
    · next heq => rw [heq]
    · rfl
  constructor
  · exact fun id hid => lt_of_lt_of_le (h.fresh id hid) hnext
  · exact h.ended
  · intro name' id
    rw [htopic]
    exact h.held name' id
  · intro id opts
    rw [htopic]
    exact h.listed id opts
  · intro name' id next
    rw [htopic]
    exact h.callbacks name' id next

variable {opts : SubscribeOptions}

theorem Inv.subscribe (h : Inv s) (he : step config s (.subscribe opts) = some s') : Inv s' := by
  simp only [step] at he
  split at he <;> cases he
  have hnew : s.nextID ∉ s.subscribed := fun hmem => lt_irrefl _ (h.fresh _ hmem)
  have hnone : s.subscribed.lookup s.nextID = none := lookup_eq_none.mpr hnew
  have htopic : ∀ name, topic { s with
      topics := s.topics.insert opts.topic ⟨(s.topic opts.topic).subscribers.insert s.nextID (),
          (s.topic opts.topic).multiplexer.add s.nextID opts.props.getCorrelationID opts.filter⟩
      nextID := s.nextID + 1
      subscribed := s.subscribed.insert s.nextID opts } name = _ := topic_of_insert rfl
  constructor
  · intro id hid
    rcases (mem_insert _).mp hid with rfl | hid
    · exact Nat.lt_succ_self _
    · exact Nat.lt_succ_of_lt (h.fresh id hid)
  · intro id hid
    exact (mem_insert _).mpr (.inr (h.ended id hid))
  · intro name id hid
    rw [lookup_insert_eq]
    have hold := h.held name id
    grind [mem_insert]
  · intro id opts' hlook hended
    rw [lookup_insert_eq] at hlook
    have hold := h.listed id opts'
    grind [mem_insert]
  · intro name id next
    have hold := h.callbacks name id next
    rw [htopic, lookup_insert_eq]
    by_cases hself : id = s.nextID
    · have hfresh : s.nextID ∉ s.ended := fun hmem => hnew (h.ended _ hmem)
      subst hself
      have hnot : (s.topic name).multiplexer.lookup s.nextID ≠ some next := by
        simp [hold, hnone]
      by_cases hname : name = opts.topic
      · simp [hname, add, callBack, isLive, hfresh]
      · simp [hname, Ne.symm hname, hnot, isLive]
    · simp only [if_neg hself]
      refine Iff.trans ?_ hold
      split
      · next hname => simp [hname, add, lookup_insert_ne hself]
      · rfl

variable {topic : String} {id : ID}

theorem Inv.end (h : Inv s) (hid : s.subscribed.lookup id = some opts) (hown : opts.topic = topic)
    {topics : FinMap String TopicChannel}
    (htopic : ∀ name, State.topic { s with topics, ended := id :: s.ended } name =
      if name = topic then t else s.topic name)
    (hsubscribers : ∀ i, i ≠ id → (i ∈ t.subscribers ↔ i ∈ (s.topic topic).subscribers))
    (hsub : ∀ i ∈ t.subscribers, i ∈ (s.topic topic).subscribers)
    (hcalls : ∀ i, t.multiplexer.lookup i =
      if i = id then none else (s.topic topic).multiplexer.lookup i) :
    Inv { s with topics, ended := id :: s.ended } := by
  constructor
  · exact h.fresh
  · exact List.forall_mem_cons.mpr ⟨lookup_isSome.mp (by rw [hid]; rfl), h.ended⟩
  · intro name i hi
    rw [htopic] at hi
    split at hi
    · next hname => exact hname ▸ h.held topic i (hsub i hi)
    · exact h.held name i hi
  · intro i opts hlook hended
    obtain ⟨hne, hended⟩ := not_or.mp (List.mem_cons.not.mp hended)
    have hold := h.listed i opts hlook hended
    rw [htopic]
    split
    · next hname => exact (hsubscribers i hne).mpr (hname ▸ hold)
    · exact hold
  · intro name i next
    have hold := h.callbacks name i next
    rw [htopic]
    by_cases hi : i = id
    · subst hi
      refine iff_of_false ?_ (by simp [isLive])
      split
      · simp [hcalls]
      · next hname => simp [hold, hid, isLive, hown, Ne.symm hname]
    have hmx : (if name = topic then t else s.topic name).multiplexer.lookup i =
        (s.topic name).multiplexer.lookup i := by
      split
      · next hname => rw [hcalls, if_neg hi, hname]
      · rfl
    simpa [hmx, isLive, hi] using hold

theorem Inv.contextDone (h : Inv s)
    (he : step config s (.contextDone topic id) = some s') : Inv s' := by
  obtain ⟨hid, he⟩ := ite_none_right_eq_some.mp he
  cases he
  obtain ⟨next, hnext⟩ := isSome_iff_exists.mp (lookup_isSome.mpr hid)
  obtain ⟨opts, hlook, hlive, -⟩ := (h.callbacks topic id next).mp hnext
  have hown : opts.topic = topic := by simpa using (Bool.and_eq_true_iff.mp hlive).1
  exact h.end hlook hown (topic_of_insert rfl) (fun _ _ => Iff.rfl) (fun _ hi => hi)
    (fun _ => lookup_erase_eq)

theorem Inv.unSubscribe (h : Inv s) (he : step config s (.unSubscribe topic id) = some s') :
    (Clean s' ↔ LastLeaves s (.unSubscribe topic id)) ∧
      (LastLeaves s (.unSubscribe topic id) → Inv s') := by
  simp only [step] at he
  split at he
  · next hid =>
    obtain ⟨opts, hlook, hown⟩ := h.held topic id hid
    have hinv : LastLeaves s (.unSubscribe topic id) → Inv s' := by
      intro hlast
      cases he
      split
      · next hempty =>
        have honly : ∀ i ∈ (s.topic topic).subscribers, i = id := by
          intro i hi
          by_contra hne
          have hmem := lookup_isSome.mpr (mem_erase.mpr ⟨hne, hi⟩)
          simp [lookup_of_size_eq_zero hempty] at hmem
        refine h.end hlook hown (topic_of_erase rfl) ?_ ?_ ?_
        · exact fun i hi => iff_of_false (notMem_empty i) fun hmem => hi (honly i hmem)
        · exact fun i hi => absurd hi (notMem_empty i)
        intro i
        split
        · rfl
        next hi =>
        refine (eq_none_iff_forall_ne_some.mpr fun next hnext => ?_).symm
        obtain ⟨opts', hlook', hlive, -⟩ := (h.callbacks topic i next).mp hnext
        simp only [State.isLive, Bool.and_eq_true, beq_iff_eq, decide_eq_true_eq] at hlive
        exact hi (honly i (hlive.1 ▸ h.listed i opts' hlook' hlive.2))
      · next hoth =>
        have hgone : id ∉ (s.topic topic).multiplexer := fun hmx => hoth (hlast hid hmx)
        refine h.end hlook hown (topic_of_insert rfl) ?_ ?_ ?_
        · exact fun i hi => by simp [hi]
        · exact fun i hi => (mem_erase.mp hi).2
        · intro i
          split
          · next hi => rw [hi, lookup_eq_none.mpr hgone]
          · rfl
    refine ⟨⟨fun hclean _ hmx => ?_, fun hlast => (hinv hlast).clean⟩, hinv⟩
    cases he
    by_contra hoth
    have hkept := hclean topic id
    rw [topic_of_insert (s := s) (if_neg hoth), if_pos rfl] at hkept
    exact hkept hmx List.mem_cons_self
  · next hid =>
    cases he
    have hkeep := h.keep topic le_rfl s.reports
    exact ⟨iff_of_true hkeep.clean fun hmem => absurd hmem hid, fun _ => hkeep⟩

theorem wanting_inOrder (t : TopicChannel) (event : MessageEvent) (order : List ID) :
    wanting event (inOrder t order) = order.filter (t.multiplexer.wants event) := by
  induction order with
  | nil => rfl
  | cons id order ih =>
    simp only [inOrder, wanting] at ih
    cases hid : t.multiplexer.lookup id with
    | none => simp [inOrder, wanting, wants, hid, ih]
    | some next =>
      cases hwants : next.wants event <;> simp [inOrder, wanting, wants, hid, hwants, ih]

theorem mem_expecting (h : Inv s) (event : MessageEvent) (id : ID) :
    id ∈ s.expecting event ↔ (s.topic event.topic).multiplexer.wants event id = true := by
  simp only [expecting, List.mem_map, List.mem_filter, Bool.and_eq_true,
    wants, any_eq_true, h.callbacks]
  constructor
  · rintro ⟨⟨id, opts⟩, ⟨hmem, hlive, hwants⟩, rfl⟩
    exact ⟨_, ⟨opts, lookup_eq_some_iff_mem.mpr hmem, hlive, rfl⟩, hwants⟩
  · rintro ⟨_, ⟨opts, hlook, hlive, rfl⟩, hwants⟩
    exact ⟨⟨id, opts⟩, ⟨lookup_eq_some_iff_mem.mp hlook, hlive, hwants⟩, rfl⟩

theorem Inv.send (h : Inv s) {payload : List UInt8} {props : MessageHeaders}
    {errors order : List ID}
    (he : step config s (.send topic payload props errors order) = some s') :
    Inv s' ∧ ∃ r, s'.reports = r :: s.reports ∧ (errors = [] → r.invoked.Perm r.expected) := by
  simp only [step] at he
  split at he
  · cases he
  obtain ⟨horder, he⟩ := ite_none_right_eq_some.mp he
  cases he
  refine ⟨h.keep topic (Nat.le_succ _) _, _, rfl, ?_⟩
  rintro rfl
  rw [notify_invoked, reached_eq_self (by simp), wanting_inOrder, List.nil_append]
  refine (List.perm_ext_iff_of_nodup ?_ ?_).mpr fun id => ?_
  · exact (horder.nodup_iff.mpr (keys_nodup _)).filter _
  · exact (keys_nodup s.subscribed).sublist (List.filter_sublist.map Sigma.fst)
  · rw [mem_expecting h, List.mem_filter, horder.mem_iff]
    refine and_iff_right_of_imp fun hwants => ?_
    obtain ⟨next, hnext, -⟩ := (any_eq_true _ _).mp hwants
    exact mem_keys.mp (lookup_isSome.mp (by rw [hnext]; rfl))

theorem Inv.step {action : Action} (h : Inv s) (he : step config s action = some s') :
    (Clean s' ↔ LastLeaves s action) ∧ (LastLeaves s action → Inv s') := by
  cases action with
  | subscribe => exact ⟨iff_of_true (h.subscribe he).clean trivial, fun _ => h.subscribe he⟩
  | unSubscribe => exact h.unSubscribe he
  | contextDone =>
    exact ⟨iff_of_true (h.contextDone he).clean trivial, fun _ => h.contextDone he⟩
  | send =>
    exact ⟨iff_of_true (h.send he).1.clean trivial, fun _ => (h.send he).1⟩

/-- The callbacks of ended subscriptions are gone all the time in exactly the runs in which a
subscriber that leaves is the last one of its topic. Then the callbacks that a message reaches are
those of the other subscribers that want it, each once, if none of them returns an error. -/
theorem unsubscribing_final_iff (config : QueueConfig) :
    (∀ actions, (system config).Along Clean .initial actions ↔
        (system config).Meets LastLeaves .initial actions) ∧
      ∀ s, (system config).ReachableWith LastLeaves s → ∀ topic payload props order s',
          step config s (.send topic payload props [] order) = some s' →
            ∃ r, s'.reports = r :: s.reports ∧ r.invoked.Perm r.expected := by
  constructor
  · intro actions
    exact TransitionSystem.along_iff_meets (fun _ hs => hs.clean)
      (fun _ _ _ hs he => (hs.step he).imp_left Iff.mp) inv_initial actions
  · intro s hs topic payload props order s' he
    have hinv : Inv s := hs.invariant (fun _ hs => hs ▸ inv_initial)
      fun _ _ _ h hok he => (h.step he).2 hok
    obtain ⟨-, r, hr, hperm⟩ := hinv.send he
    exact ⟨r, hr, hperm rfl⟩

/-- Two subscribers of a topic, the first of which leaves before a message is sent. -/
theorem called_after_unSubscribe : ∃ s, (system ⟨10, 10, 3⟩).Reachable s ∧
      (s.reports.map fun r => (decide (0 ∈ s.ended), r.invoked, r.expected)) =
        [(true, [1, 0], [1])] :=
  TransitionSystem.exists_reachableWith (fun _ _ => True) _
    [.subscribe { topic := "t" }, .subscribe { topic := "t" }, .unSubscribe "t" 0,
      .send "t" [1] ∅ [] [1, 0]] rfl (by decide)

end Formicary.Queue.ChannelTopics

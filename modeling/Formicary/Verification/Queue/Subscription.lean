import Formicary.Library.Pool
import Formicary.Verification.Queue.Topics

/-! # When a subscription of the queen is effective

`Subscribe` looks the topic object up, adds the subscriber to its multiplexer and records the
subscription in three sections. -/

namespace Formicary.Queue

open FinMap Pool SendReceiveMultiplexer WSServer List Nat Option

namespace Subscription

variable {config : QueueConfig} {s s' : State}

/-- Every `Send` that has returned called the callbacks of the subscribers that want its message
and were subscribed from before the call until after it. -/
def Effective (s : State) : Prop :=
  ∀ r ∈ s.reports, ∀ id ∈ r.owed, id ∈ r.offered

instance : DecidablePred Effective := fun s =>
  inferInstanceAs (Decidable (∀ r ∈ s.reports, ∀ id ∈ r.owed, id ∈ r.offered))

/-- The last subscriber does not leave a topic while a call of `Subscribe` on it is under way, and
a callback returns an error only where no other subscriber that wants the message is left. -/
def Undisturbed (s : State) : Action → Prop
  | .unSubscribe topic id =>
    s.server.isLast topic id = true → ∀ call ∈ s.subscribing, call.opts.topic ≠ topic
  | .notify i j true =>
    ∀ call ∈ s.sending[i]?, ∀ rest ∈ call.remaining, ∀ e ∈ rest.eraseIdx j,
      e.2.wants call.event = false
  | _ => True

instance (s : State) : DecidablePred (Undisturbed s) := fun a => by
  unfold Undisturbed
  split <;> infer_instance

def Sending.Reaches (server : WSServer) (call : Sending) (id : ID) : Prop :=
  match call.remaining with
  | none =>
    ∃ next, (server.objects call.ref).mx.lookup id = some next ∧ next.wants call.event = true
  | some rest => id ∈ call.offered ∨ ∃ next, ⟨id, next⟩ ∈ rest ∧ next.wants call.event = true

variable {call : Sending} {id : ID} {server : WSServer}

theorem Sending.Reaches.congr {server' : WSServer} (h : call.Reaches server id)
    (hmx : (server'.objects call.ref).mx.lookup id = (server.objects call.ref).mx.lookup id) :
    call.Reaches server' id := by
  unfold Sending.Reaches at h ⊢
  rw [hmx]
  exact h

structure Sound (s : State) : Prop where
  named : ∀ name ref, s.server.topics.lookup name = some ref →
    ref < s.server.made ∧ (s.server.objects ref).name = name
  /-- the object that a call has looked up is the one that the map has -/
  calls : ∀ call ∈ s.subscribing, s.server.topics.lookup call.opts.topic = some call.ref
  added : ∀ call ∈ s.subscribing, call.added = true → call.id ∉ s.ended →
    (s.server.objects call.ref).mx.lookup call.id = some (callBack call.opts)
  fresh : ∀ call ∈ s.subscribing, call.id < s.nextID ∧ s.subscribed.lookup call.id = none
  distinct : (s.subscribing.map Subscribing.id).Nodup
  old : ∀ id opts, s.subscribed.lookup id = some opts → id < s.nextID
  /-- so is the object that a subscription is in -/
  held : ∀ id opts, s.subscribed.lookup id = some opts → id ∉ s.ended →
    ∃ ref, s.server.topics.lookup opts.topic = some ref ∧
      (s.server.objects ref).localSubs.lookup id = some () ∧
      (s.server.objects ref).mx.lookup id = some (callBack opts)
  recorded : ∀ ref id, (s.server.objects ref).localSubs.lookup id = some () →
    ∃ opts, s.subscribed.lookup id = some opts ∧ (s.server.objects ref).name = opts.topic
  sends : ∀ call ∈ s.sending, call.ref < s.server.made
  expected : ∀ call ∈ s.sending, ∀ id ∈ call.expected, s.subscribed.lookup id ≠ none
  reaches : ∀ call ∈ s.sending, ∀ id ∈ call.expected, id ∉ s.ended → call.Reaches s.server id
  effective : Effective s

theorem sound_initial : Sound State.initial := by
  refine ⟨fun _ _ h => ?_, fun _ h => ?_, fun _ h => ?_, fun _ h => ?_, nodup_nil,
    fun _ _ h => ?_, fun _ _ h => ?_, fun _ _ h => ?_, fun _ h => ?_, fun _ h => ?_, fun _ h => ?_,
    fun _ h => ?_⟩ <;> cases h

def State.InUse (s : State) (id : ID) : Prop :=
  s.subscribed.lookup id ≠ none ∨ ∃ call ∈ s.subscribing, call.added = true ∧ call.id = id

/-- A section that changes one topic object, and not for the subscribers in use. -/
theorem Sound.modify (h : Sound s) {ref : ℕ} {f : WSTopic → WSTopic}
    (hname : ∀ t, (f t).name = t.name)
    (hmx : ∀ t id, s.InUse id → id ∉ s.ended → (f t).mx.lookup id = t.mx.lookup id)
    (hlocal : ∀ t id, id ∉ s.ended → t.localSubs.lookup id = some () →
      (f t).localSubs.lookup id = some ())
    (hrec : ∀ t id, (f t).localSubs.lookup id = some () → t.localSubs.lookup id = some ()) :
    Sound { s with server := s.server.modify ref f } := by
  have hname' : ∀ ref', ((s.server.modify ref f).objects ref').name =
      (s.server.objects ref').name := modify_keeps WSTopic.name (hname _)
  have hmx' : ∀ ref' id, s.InUse id → id ∉ s.ended →
      ((s.server.modify ref f).objects ref').mx.lookup id = (s.server.objects ref').mx.lookup id :=
    fun ref' id huse hlive =>
      modify_keeps (fun t => t.mx.lookup id) (hmx _ id huse hlive) ref'
  refine { h with named := ?_, added := ?_, held := ?_, recorded := ?_, reaches := ?_ }
  · intro name ref' hlook
    obtain ⟨hlt, heq⟩ := h.named name ref' hlook
    exact ⟨hlt, (hname' ref').trans heq⟩
  · intro call hcall hadded hlive
    refine (hmx' call.ref call.id (.inr ⟨call, hcall, hadded, rfl⟩) hlive).trans ?_
    exact h.added call hcall hadded hlive
  · intro id opts hsub hlive
    obtain ⟨ref', hlook, hloc, hin⟩ := h.held id opts hsub hlive
    have huse : s.InUse id := .inl (hsub ▸ some_ne_none opts)
    refine ⟨ref', hlook, ?_, (hmx' ref' id huse hlive).trans hin⟩
    simp only [objects_modify]
    split
    · next href => exact hlocal _ id hlive (href ▸ hloc)
    · exact hloc
  · intro ref' id hloc
    have hloc' : (s.server.objects ref').localSubs.lookup id = some () := by
      simp only [objects_modify] at hloc
      split at hloc
      · next href => exact href ▸ hrec _ id hloc
      · exact hloc
    obtain ⟨opts, hsub, htopic⟩ := h.recorded ref' id hloc'
    exact ⟨opts, hsub, (hname' ref').trans htopic⟩
  · intro call hcall id hid hlive
    refine (h.reaches call hcall id hid hlive).congr ?_
    exact hmx' call.ref id (.inl (h.expected call hcall id hid)) hlive

theorem Sound.ended_cons (h : Sound s) (id : ID) : Sound { s with ended := id :: s.ended } := by
  refine { h with
    added := fun call hcall hadded hlive => h.added call hcall hadded ?_
    held := fun id' opts hsub hlive => h.held id' opts hsub ?_
    reaches := fun call hcall id' hid hlive => h.reaches call hcall id' hid ?_ }
  all_goals exact fun hmem => hlive (mem_cons_of_mem id hmem)

theorem Sound.lookup (h : Sound s) (name : String) :
    Sound { s with server := (s.server.getOrCreateTopic name).2 } := by
  rcases getOrCreateTopic_cases s.server name with ⟨ref, _, heq⟩ | ⟨hnone, heq⟩
  · rw [heq]
    exact h
  rw [heq]
  have htops : ∀ name' ref, s.server.topics.lookup name' = some ref →
      (s.server.topics.insert name s.server.made).lookup name' = some ref := by
    intro name' ref hlook
    rw [lookup_insert_eq, if_neg]
    · exact hlook
    · rintro rfl
      rw [hnone] at hlook
      cases hlook
  have hobj : ∀ ref, ref < s.server.made →
      Function.update s.server.objects s.server.made (WSTopic.new name) ref =
        s.server.objects ref :=
    fun ref hlt => Function.update_of_ne (Nat.ne_of_lt hlt) ..
  refine ⟨?_, ?_, ?_, h.fresh, h.distinct, h.old, ?_, ?_, ?_, h.expected, ?_, h.effective⟩
  · intro name' ref hlook
    simp only [lookup_insert_eq] at hlook
    split at hlook
    · next hname =>
      cases hlook
      refine ⟨lt_succ_self _, ?_⟩
      rw [hname]
      simp [WSTopic.new]
    · obtain ⟨hlt, hname⟩ := h.named name' ref hlook
      exact ⟨lt_succ_of_lt hlt, (congrArg WSTopic.name (hobj ref hlt)).trans hname⟩
  · intro call hcall
    exact htops _ _ (h.calls call hcall)
  · intro call hcall hadded hlive
    have hlt := (h.named _ _ (h.calls call hcall)).1
    simpa only [hobj _ hlt] using h.added call hcall hadded hlive
  · intro id opts hsub hlive
    obtain ⟨ref, hlook, hloc, hin⟩ := h.held id opts hsub hlive
    have hlt := (h.named _ _ hlook).1
    refine ⟨ref, htops _ _ hlook, ?_⟩
    simpa only [hobj _ hlt] using ⟨hloc, hin⟩
  · intro ref id hloc
    simp only [Function.update_apply] at hloc ⊢
    split at hloc
    · cases hloc
    next hne =>
    simpa only [hne, if_false] using h.recorded ref id hloc
  · intro call hcall
    exact lt_succ_of_lt (h.sends call hcall)
  · intro call hcall id hid hlive
    refine (h.reaches call hcall id hid hlive).congr ?_
    simp only [hobj _ (h.sends call hcall)]

variable {i : ℕ} {opts : SubscribeOptions}

theorem sound_subscribe (h : Sound s) (hs : step config s (.subscribe opts) = some s') :
    Sound s' := by
  simp only [step] at hs
  split at hs <;> cases hs
  have hl := h.lookup opts.topic
  have hid : s.subscribed.lookup s.nextID = none := by
    cases hsub : s.subscribed.lookup s.nextID with
    | none => rfl
    | some => exact absurd (h.old _ _ hsub) (lt_irrefl _)
  refine { hl with calls := ?_, added := ?_, fresh := ?_, distinct := ?_, old := ?_ }
  · exact forall_mem_cons.mpr ⟨lookup_getOrCreateTopic s.server opts.topic, hl.calls⟩
  · exact forall_mem_cons.mpr ⟨fun hadded => absurd hadded Bool.false_ne_true, hl.added⟩
  · refine forall_mem_cons.mpr ⟨⟨lt_succ_self _, hid⟩, ?_⟩
    exact fun call hcall => ⟨lt_succ_of_lt (h.fresh call hcall).1, (h.fresh call hcall).2⟩
  · refine nodup_cons.mpr ⟨?_, h.distinct⟩
    intro hmem
    obtain ⟨call, hcall, heq⟩ := mem_map.mp hmem
    exact Nat.ne_of_lt (h.fresh call hcall).1 heq
  · exact fun id opts' hsub => lt_succ_of_lt (h.old id opts' hsub)

theorem sound_add (h : Sound s) (hs : step config s (.add i) = some s') : Sound s' := by
  simp only [step] at hs
  split at hs <;> cases hs
  next ref id opts hget =>
  have hcall := mem_of_get hget
  have hlook : s.server.topics.lookup opts.topic = some ref := h.calls _ hcall
  have hfresh : id < s.nextID ∧ s.subscribed.lookup id = none := h.fresh _ hcall
  -- the identifier belongs to this call alone, and it has not been added before
  have huse : ∀ id', s.InUse id' → id' ≠ id := by
    rintro id' (hsub | ⟨call, hmem, hadded, rfl⟩) heq
    · exact hsub (heq ▸ hfresh.2)
    · rw [inj_on_of_nodup_map h.distinct hmem hcall heq] at hadded
      cases hadded
  have hf : Sound { s with
      server := s.server.addSubscriber ref id opts.props.getCorrelationID opts.filter } := by
    refine h.modify (fun _ => rfl) (fun t id' hid' _ => ?_) (fun _ _ _ hloc => hloc)
      fun _ _ hloc => hloc
    simp only [add, lookup_insert_eq, huse id' hid', if_false]
  refine { hf with calls := ?_, added := ?_, fresh := ?_, distinct := ?_ }
  · exact forall_set hf.calls hlook
  · refine forall_set hf.added ?_
    intro _ _
    exact (mx_addSubscriber ..).trans (if_pos ⟨rfl, rfl⟩)
  · exact forall_set hf.fresh hfresh
  · have hmap : (s.subscribing.set i ⟨ref, id, opts, true⟩).map Subscribing.id =
        s.subscribing.map Subscribing.id := map_set hget rfl
    exact hmap.symm ▸ h.distinct

theorem sound_record (h : Sound s) (hs : step config s (.record i) = some s') : Sound s' := by
  simp only [step] at hs
  split at hs <;> cases hs
  next ref id opts hget =>
  have hcall := mem_of_get hget
  have hlook : s.server.topics.lookup opts.topic = some ref := h.calls _ hcall
  have hname : ∀ ref', ((s.server.recordLocal ref id).objects ref').name =
      (s.server.objects ref').name := modify_keeps WSTopic.name rfl
  have hmx : ∀ ref', ((s.server.recordLocal ref id).objects ref').mx =
      (s.server.objects ref').mx := modify_keeps WSTopic.mx rfl
  have hother : ∀ call ∈ s.subscribing.eraseIdx i, call.id ≠ id :=
    fun call hmem => ne_of_mem_eraseIdx h.distinct hget hmem
  refine ⟨?_, ?_, ?_, ?_, ?_, ?_, ?_, ?_, h.sends, ?_, ?_, h.effective⟩
  · intro name ref' hlook'
    obtain ⟨hlt, heq⟩ := h.named name ref' hlook'
    exact ⟨hlt, (hname ref').trans heq⟩
  · exact forall_eraseIdx h.calls
  · intro call hmem hadded hlive
    simp only [hmx]
    exact h.added call (mem_of_mem_eraseIdx hmem) hadded hlive
  · intro call hmem
    obtain ⟨hlt, hnone⟩ := h.fresh call (mem_of_mem_eraseIdx hmem)
    refine ⟨hlt, ?_⟩
    simp only [lookup_insert_eq, hother call hmem, if_false, hnone]
  · exact h.distinct.sublist ((eraseIdx_sublist s.subscribing i).map Subscribing.id)
  · intro id' opts' hsub
    simp only [lookup_insert_eq] at hsub
    split at hsub
    · next heq => exact heq ▸ (h.fresh _ hcall).1
    · exact h.old id' opts' hsub
  · intro id' opts' hsub hlive
    simp only [lookup_insert_eq] at hsub
    simp only [localSubs_recordLocal, hmx]
    split at hsub
    · next heq =>
      cases hsub
      subst heq
      exact ⟨ref, hlook, if_pos ⟨rfl, rfl⟩, h.added _ hcall rfl hlive⟩
    · obtain ⟨ref', hlook', hloc, hin⟩ := h.held id' opts' hsub hlive
      exact ⟨ref', hlook', by rw [hloc, ite_self], hin⟩
  · intro ref' id' hloc
    simp only [localSubs_recordLocal] at hloc
    simp only [lookup_insert_eq, hname]
    split at hloc
    · next heq =>
      rw [if_pos heq.2, heq.1]
      exact ⟨opts, rfl, (h.named _ _ hlook).2⟩
    obtain ⟨opts', hsub, htopic⟩ := h.recorded ref' id' hloc
    have hne : id' ≠ id := by
      rintro rfl
      rw [(h.fresh _ hcall).2] at hsub
      cases hsub
    rw [if_neg hne]
    exact ⟨opts', hsub, htopic⟩
  · intro call hsend id' hid'
    simp only [lookup_insert_eq]
    split
    · exact some_ne_none opts
    · exact h.expected call hsend id' hid'
  · intro call hsend id' hid' hlive
    exact (h.reaches call hsend id' hid' hlive).congr (by rw [hmx])

theorem Sound.forget {name : String} (h : Sound s)
    (hcalls : ∀ call ∈ s.subscribing, call.opts.topic ≠ name)
    (hempty : ∀ ref, s.server.topics.lookup name = some ref →
      (s.server.objects ref).localSubs.size = 0) :
    Sound { s with server := { s.server with topics := s.server.topics.erase name } } := by
  refine { h with named := ?_, calls := ?_, held := ?_ }
  · intro name' ref hlook
    simp only [lookup_erase_eq] at hlook
    split at hlook
    · cases hlook
    · exact h.named name' ref hlook
  · intro call hcall
    simp only [lookup_erase_eq, hcalls call hcall, if_false, h.calls call hcall]
  · intro id opts hsub hlive
    obtain ⟨ref, hlook, hloc, hin⟩ := h.held id opts hsub hlive
    refine ⟨ref, ?_, hloc, hin⟩
    rw [lookup_erase_eq, if_neg]
    · exact hlook
    · rintro rfl
      rw [lookup_of_size_eq_zero (hempty ref hlook)] at hloc
      cases hloc

theorem Sound.leave (h : Sound s) (ref : ℕ) (id : ID) :
    Sound { s with server := s.server.leave ref id, ended := id :: s.ended } := by
  have hother : ∀ id', id' ∉ id :: s.ended → id' ≠ id :=
    fun _ hlive heq => hlive (heq ▸ mem_cons_self)
  refine (h.ended_cons id).modify (fun _ => rfl) ?_ ?_ ?_
  · intro t id' _ hlive
    simp only [remove, lookup_erase_eq, hother id' hlive, if_false]
  · intro t id' hlive hloc
    simp only [lookup_erase_eq, hother id' hlive, if_false, hloc]
  · intro t id' hloc
    simp only [lookup_erase_eq] at hloc
    split at hloc
    · cases hloc
    · exact hloc

variable {topic : String}

theorem sound_unSubscribe (h : Sound s) (hok : Undisturbed s (.unSubscribe topic id))
    (hs : step config s (.unSubscribe topic id) = some s') : Sound s' := by
  cases hs
  rcases unSubscribe_cases s.server topic id with heq | ⟨ref, hlook, hlocal, heq⟩
  · rw [heq]
    split
    · exact h.ended_cons id
    · exact h
  obtain ⟨opts, hsub, hname⟩ := h.recorded ref id hlocal
  have hown : ((s.subscribed.lookup id).any fun opts => opts.topic == topic) = true := by
    simp [hsub, ← hname, (h.named _ _ hlook).2]
  rw [if_pos hown, heq]
  have hleft := h.leave ref id
  by_cases hlast : s.server.isLast topic id = true
  · rw [if_pos hlast]
    refine hleft.forget (hok hlast) ?_
    intro ref' hlook'
    cases hlook.symm.trans hlook'
    rw [leave, objects_modify, if_pos rfl]
    simp only [isLast, hlook, any_some, Bool.and_eq_true, beq_iff_eq] at hlast
    exact hlast.1.2
  · rw [if_neg hlast]
    exact hleft

theorem sound_contextDone (h : Sound s) {ref : ℕ}
    (hs : step config s (.contextDone ref id) = some s') : Sound s' := by
  simp only [step] at hs
  split at hs <;> cases hs
  refine (h.ended_cons id).modify (fun _ => rfl) (fun t id' _ hlive => ?_) (fun _ _ _ hloc => hloc)
    fun _ _ hloc => hloc
  have hother : id' ≠ id := fun heq => hlive (heq ▸ mem_cons_self)
  simp only [remove, lookup_erase_eq, hother, if_false]

variable {event : MessageEvent}

theorem mem_expecting : id ∈ s.expecting event ↔ ∃ opts, s.subscribed.lookup id = some opts ∧
      opts.topic = event.topic ∧ (callBack opts).wants event = true ∧ id ∉ s.ended := by
  simp only [State.expecting, List.mem_map, mem_filter, Bool.and_eq_true, beq_iff_eq,
    decide_eq_true_eq]
  constructor
  · rintro ⟨⟨id', opts⟩, ⟨hmem, ⟨htopic, hwants⟩, hlive⟩, rfl⟩
    exact ⟨opts, lookup_eq_some_iff_mem.mpr hmem, htopic, hwants, hlive⟩
  · rintro ⟨opts, hsub, htopic, hwants, hlive⟩
    exact ⟨⟨id, opts⟩, ⟨lookup_eq_some_iff_mem.mp hsub, ⟨htopic, hwants⟩, hlive⟩, rfl⟩

theorem sound_send (h : Sound s) {payload : List UInt8} {props : MessageHeaders}
    (hs : step config s (.send topic payload props) = some s') : Sound s' := by
  simp only [step] at hs
  split at hs <;> cases hs
  have hl := h.lookup topic
  have hlook := lookup_getOrCreateTopic s.server topic
  refine { hl with fresh := ?_, old := ?_, sends := ?_, expected := ?_, reaches := ?_ }
  · exact fun call hcall => ⟨lt_succ_of_lt (h.fresh call hcall).1, (h.fresh call hcall).2⟩
  · exact fun id opts hsub => lt_succ_of_lt (h.old id opts hsub)
  · exact forall_mem_cons.mpr ⟨(hl.named _ _ hlook).1, hl.sends⟩
  · refine forall_mem_cons.mpr ⟨?_, hl.expected⟩
    intro id hid
    obtain ⟨opts, hsub, _⟩ := mem_expecting.mp hid
    exact hsub ▸ some_ne_none opts
  · refine forall_mem_cons.mpr ⟨?_, hl.reaches⟩
    intro id hid hlive
    obtain ⟨opts, hsub, hopts, hwants, _⟩ := mem_expecting.mp hid
    obtain ⟨ref, hin, _, hmx⟩ := hl.held id opts hsub hlive
    have href : ref = (s.server.getOrCreateTopic topic).1 := by
      rw [hopts] at hin
      exact some.inj (hin.symm.trans hlook)
    exact ⟨callBack opts, href ▸ hmx, hwants⟩

variable {call' : Sending}

theorem Sound.sendStep (h : Sound s)
    (hget : s.sending[i]? = some call) (href : call'.ref = call.ref)
    (hexp : call'.expected = call.expected)
    (hreach : ∀ id, call.Reaches s.server id → call'.Reaches s.server id) :
    Sound { s with sending := s.sending.set i call' } := by
  have hcall := mem_of_get hget
  refine { h with sends := ?_, expected := ?_, reaches := ?_ }
  · exact forall_set h.sends (href ▸ h.sends call hcall)
  · exact forall_set h.expected (hexp ▸ h.expected call hcall)
  · refine forall_set h.reaches ?_
    intro id hid hlive
    rw [hexp] at hid
    exact hreach id (h.reaches call hcall id hid hlive)

theorem Sound.sendReturn (h : Sound s)
    (hget : s.sending[i]? = some call) (hexp : call'.expected = call.expected)
    (hreach : ∀ id, call.Reaches s.server id → id ∈ call'.offered) :
    Sound (s.returned call' i) := by
  have hcall := mem_of_get hget
  refine { h with sends := ?_, expected := ?_, reaches := ?_, effective := ?_ }
  · exact forall_eraseIdx h.sends
  · exact forall_eraseIdx h.expected
  · exact forall_eraseIdx h.reaches
  · refine forall_mem_cons.mpr ⟨?_, h.effective⟩
    intro id hid
    obtain ⟨hmem, hlive⟩ := mem_filter.mp hid
    rw [hexp] at hmem
    exact hreach id (h.reaches call hcall id hmem (by simpa using hlive))

theorem Sending.Reaches.next {rest : List (Σ _ : ID, CallBackCoRelation)} {j : ℕ}
    {next : CallBackCoRelation} (hrest : call.remaining = some rest)
    (hnext : rest[j]? = some ⟨id, next⟩) {id' : ID} (h : call.Reaches server id') :
    id' ∈ call.offered ∨ id' = id ∧ next.wants call.event = true ∨
      ∃ next, ⟨id', next⟩ ∈ rest.eraseIdx j ∧ next.wants call.event = true := by
  unfold Sending.Reaches at h
  rw [hrest] at h
  rcases h with hmem | ⟨next', hmem, hwants⟩
  · exact .inl hmem
  rcases eq_or_mem_eraseIdx hnext hmem with heq | hmem
  · cases heq
    exact .inr (.inl ⟨rfl, hwants⟩)
  · exact .inr (.inr ⟨next', hmem, hwants⟩)

theorem sound_notify (h : Sound s) {j : ℕ} {err : Bool} (hok : Undisturbed s (.notify i j err))
    (hs : step config s (.notify i j err) = some s') : Sound s' := by
  simp only [step] at hs
  split at hs
  · next ref event rest offered expected hget =>
    split at hs
    · cases hs
    next id next hnext =>
    split at hs
    · cases err <;> cases hs
      · refine h.sendStep hget rfl rfl fun id' hreach => ?_
        rcases hreach.next rfl hnext with hmem | ⟨rfl, -⟩ | hrest
        · exact .inl (mem_cons_of_mem id hmem)
        · exact .inl mem_cons_self
        · exact .inr hrest
      · refine h.sendReturn hget rfl fun id' hreach => ?_
        rcases hreach.next rfl hnext with hmem | ⟨rfl, -⟩ | ⟨next', hmem, hwants⟩
        · exact mem_cons_of_mem id hmem
        · exact mem_cons_self
        · rw [hok _ hget _ rfl _ hmem] at hwants
          cases hwants
    · next hwants =>
      cases hs
      refine h.sendStep hget rfl rfl fun id' hreach => ?_
      rcases hreach.next rfl hnext with hmem | ⟨rfl, hwants'⟩ | hrest
      · exact .inl hmem
      · exact absurd hwants' hwants
      · exact .inr hrest
  · cases hs

theorem sound_step {action : Action} (h : Sound s) (hok : Undisturbed s action)
    (hs : step config s action = some s') : Sound s' := by
  cases action with
  | subscribe => exact sound_subscribe h hs
  | add => exact sound_add h hs
  | record => exact sound_record h hs
  | unSubscribe => exact sound_unSubscribe h hok hs
  | contextDone => exact sound_contextDone h hs
  | send => exact sound_send h hs
  | notify => exact sound_notify h hok hs
  | clone =>
    simp only [step] at hs
    split at hs <;> cases hs
    next hget =>
    refine h.sendStep hget rfl rfl ?_
    rintro id ⟨next, hin, hwants⟩
    exact .inr ⟨next, lookup_eq_some_iff_mem.mp hin, hwants⟩
  | finish =>
    simp only [step] at hs
    split at hs <;> cases hs
    next hget =>
    refine h.sendReturn hget rfl ?_
    rintro id (hmem | ⟨next, hmem, _⟩)
    · exact hmem
    · cases hmem

/-- In every run that is undisturbed, a subscription is effective once `Subscribe` has returned. -/
theorem effective_of_undisturbed (h : (system config).ReachableWith Undisturbed s) :
    Effective s := by
  have hsound : Sound s :=
    h.invariant (fun _ hs => hs ▸ sound_initial) fun _ _ _ => sound_step
  exact hsound.effective

def subscribeAndSend : List Action :=
  [.subscribe { topic := "events" }, .add 0, .record 0, .send "events" [0] ∅, .clone 0,
    .notify 0 0 true, .subscribe { topic := "events" }, .unSubscribe "other" 0]

theorem effective_subscribeAndSend : ∃ s, (system ⟨1000, 256, 1⟩).ReachableWith Undisturbed s ∧
      s.reports.map Report.owed = [[0]] ∧ Effective s := by
  obtain ⟨s, hreach, howed⟩ := TransitionSystem.exists_reachableWith (S := system ⟨1000, 256, 1⟩)
    Undisturbed (fun s => s.reports.map Report.owed = [[0]]) subscribeAndSend rfl (by decide)
  exact ⟨s, hreach, howed, effective_of_undisturbed hreach⟩

/-- The first subscriber leaves between the lookup and the record of the second one, which is then
recorded in a topic object that no `Send` finds. -/
def subscribeWhileLeaving : List Action :=
  [.subscribe { topic := "events" }, .add 0, .record 0, .subscribe { topic := "events" },
    .unSubscribe "events" 0, .add 0, .record 0, .send "events" [0] ∅, .clone 0, .finish 0]

theorem not_effective_subscribeWhileLeaving :
    ∃ s, (system ⟨1000, 256, 1⟩).Reachable s ∧ ¬ Effective s :=
  TransitionSystem.exists_reachableWith _ _ subscribeWhileLeaving rfl (by decide)

end Subscription

end Formicary.Queue

import Formicary.Model.Queue.WebSocketServer

/-! # Sections of the websocket server

What each section under a lock does to the map of topics and to the topic objects. -/

namespace Formicary.Queue

namespace WSServer

variable {srv : WSServer}

theorem objects_modify (ref ref' : ℕ) (f : WSTopic → WSTopic) : (srv.modify ref f).objects ref' =
      if ref' = ref then f (srv.objects ref) else srv.objects ref' :=
  Function.update_apply ..

theorem modify_keeps {β : Type*} (g : WSTopic → β) {ref : ℕ} {f : WSTopic → WSTopic}
    (h : g (f (srv.objects ref)) = g (srv.objects ref)) (ref' : ℕ) :
    g ((srv.modify ref f).objects ref') = g (srv.objects ref') := by
  rw [objects_modify]
  split
  · next href => rw [h, href]
  · rfl

theorem mx_addSubscriber (ref ref' : ℕ) (id id' : ID) (correlationID : String)
    (filter : MessageEvent → Bool) :
    ((srv.addSubscriber ref id correlationID filter).objects ref').mx.lookup id' =
      if ref' = ref ∧ id' = id then some ⟨correlationID, filter⟩
      else (srv.objects ref').mx.lookup id' := by
  rw [addSubscriber, objects_modify]
  by_cases href : ref' = ref
  · simp [href, SendReceiveMultiplexer.add, FinMap.lookup_insert_eq]
  · simp [href]

theorem localSubs_recordLocal (ref ref' : ℕ) (id id' : ID) :
    ((srv.recordLocal ref id).objects ref').localSubs.lookup id' =
      if ref' = ref ∧ id' = id then some () else (srv.objects ref').localSubs.lookup id' := by
  rw [recordLocal, objects_modify]
  by_cases href : ref' = ref
  · simp [href, FinMap.lookup_insert_eq]
  · simp [href]

def leave (srv : WSServer) (ref : ℕ) (id : ID) : WSServer :=
  srv.modify ref fun t => { t with mx := t.mx.remove id, localSubs := t.localSubs.erase id }

theorem getOrCreateTopic_cases (srv : WSServer) (name : String) :
    (∃ ref, srv.topics.lookup name = some ref ∧ srv.getOrCreateTopic name = (ref, srv)) ∨
      srv.topics.lookup name = none ∧ srv.getOrCreateTopic name = (srv.made,
            { objects := Function.update srv.objects srv.made (WSTopic.new name)
              made := srv.made + 1
              topics := srv.topics.insert name srv.made }) := by
  unfold getOrCreateTopic
  cases h : srv.topics.lookup name with
  | some ref => exact .inl ⟨ref, rfl, rfl⟩
  | none => exact .inr ⟨rfl, rfl⟩

theorem lookup_getOrCreateTopic (srv : WSServer) (name : String) :
    (srv.getOrCreateTopic name).2.topics.lookup name = some (srv.getOrCreateTopic name).1 := by
  rcases getOrCreateTopic_cases srv name with ⟨ref, hlook, heq⟩ | ⟨_, heq⟩
  · rw [heq]
    exact hlook
  · rw [heq]
    exact AList.lookup_insert _

def isLast (srv : WSServer) (topic : String) (id : ID) : Bool :=
  (srv.topics.lookup topic).any fun ref =>
    ((srv.objects ref).localSubs.lookup id).isSome &&
      FinMap.size ((srv.objects ref).localSubs.erase id) == 0 &&
      (srv.objects ref).remoteSubs.size == 0

theorem unSubscribe_cases (srv : WSServer) (topic : String) (id : ID) :
    srv.unSubscribe topic id = srv ∨
      ∃ ref, srv.topics.lookup topic = some ref ∧ (srv.objects ref).localSubs.lookup id = some () ∧
        srv.unSubscribe topic id = { srv.leave ref id with
            topics := if srv.isLast topic id then srv.topics.erase topic else srv.topics } := by
  unfold unSubscribe isLast
  cases htopic : srv.topics.lookup topic with
  | none => exact .inl rfl
  | some ref =>
    dsimp only
    cases hlocal : (srv.objects ref).localSubs.lookup id with
    | none => exact .inl rfl
    | some =>
      refine .inr ⟨ref, rfl, hlocal, ?_⟩
      simp only [leave, maybeDeleteTopic, modify, htopic, Function.update_self, Option.any_some,
        hlocal, Option.isSome_some, Bool.true_and, Bool.and_eq_true, beq_iff_eq]
      split <;> rfl

theorem remoteSubs_unSubscribe (topic : String) (id : ID) (ref : ℕ) :
    ((srv.unSubscribe topic id).objects ref).remoteSubs = (srv.objects ref).remoteSubs := by
  rcases unSubscribe_cases srv topic id with heq | ⟨ref', _, _, heq⟩
  · rw [heq]
  have hleave : ((srv.leave ref' id).objects ref).remoteSubs = (srv.objects ref).remoteSubs :=
    modify_keeps WSTopic.remoteSubs rfl ref
  rw [heq, hleave]

end WSServer

end Formicary.Queue

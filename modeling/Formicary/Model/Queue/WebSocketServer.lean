import Formicary.Library.Transition
import Formicary.Model.Queue.SendReceiveMultiplexer

/-! # The queen's side of the websocket queue

The server keeps a map from topic names to topic objects. A call looks an object up under the lock
of the map and goes on with the object after it has given the lock back, so that an object may
still be used when the map has it no longer. -/

namespace Formicary.Queue

/-- A subscription that an ant has made over its connection. -/
structure WSRemoteSub where
  id : ID
  conn : ID
  topic : String
  group : String
  deriving DecidableEq, Repr

structure WSTopic where
  name : String
  localSubs : FinSet ID
  remoteSubs : FinMap ID WSRemoteSub
  mx : SendReceiveMultiplexer

def WSTopic.new (name : String) : WSTopic := ⟨name, ∅, ∅, ∅⟩

/-- The topic objects that have been made, by reference, and the map from names to references. -/
structure WSServer where
  objects : ℕ → WSTopic
  made : ℕ
  topics : FinMap String ℕ

namespace WSServer

def initial : WSServer := ⟨fun _ => WSTopic.new "", 0, ∅⟩

variable (srv : WSServer)

def modify (ref : ℕ) (f : WSTopic → WSTopic) : WSServer :=
  { srv with objects := Function.update srv.objects ref (f (srv.objects ref)) }

def getOrCreateTopic (name : String) : ℕ × WSServer :=
  match srv.topics.lookup name with
  | some ref => (ref, srv)
  | none =>
    (srv.made,
      { objects := Function.update srv.objects srv.made (WSTopic.new name)
        made := srv.made + 1
        topics := srv.topics.insert name srv.made })

/-- A topic without subscribers leaves the map. -/
def maybeDeleteTopic (name : String) : WSServer :=
  match srv.topics.lookup name with
  | none => srv
  | some ref =>
    if (srv.objects ref).localSubs.size = 0 ∧ (srv.objects ref).remoteSubs.size = 0 then
      { srv with topics := srv.topics.erase name }
    else srv

/-! ## The sections of a local subscription -/

/-- `mx.Add` in `Subscribe`. -/
def addSubscriber (ref : ℕ) (id : ID) (correlationID : String) (filter : MessageEvent → Bool) :
    WSServer :=
  srv.modify ref fun t => { t with mx := t.mx.add id correlationID filter }

/-- `Subscribe` records the subscription in the topic object that it looked up. -/
def recordLocal (ref : ℕ) (id : ID) : WSServer :=
  srv.modify ref fun t => { t with localSubs := t.localSubs.insert id () }

/-- The goroutine that `mx.Add` starts removes the subscriber when its context ends. -/
def contextDone (ref : ℕ) (id : ID) : WSServer :=
  srv.modify ref fun t => { t with mx := t.mx.remove id }

def unSubscribe (topic : String) (id : ID) : WSServer :=
  match srv.topics.lookup topic with
  | none => srv
  | some ref =>
    match (srv.objects ref).localSubs.lookup id with
    | none => srv
    | some () =>
      (srv.modify ref fun t =>
        { t with
          mx := t.mx.remove id, localSubs := t.localSubs.erase id }).maybeDeleteTopic topic

/-! ## The sections of a remote subscription -/

/-- `handleSubscribeFrame` records the subscription in the topic object that it looked up. -/
def recordRemote (ref : ℕ) (rs : WSRemoteSub) : WSServer :=
  srv.modify ref fun t => { t with remoteSubs := t.remoteSubs.insert rs.id rs }

/-- `handleUnsubscribeFrame`; the topic stays in the map. -/
def removeRemote (topic : String) (subID : ID) : WSServer :=
  match srv.topics.lookup topic with
  | none => srv
  | some ref => srv.modify ref fun t => { t with remoteSubs := t.remoteSubs.erase subID }

end WSServer

/-! ## Calls of the queen

`Subscribe` and `Send` of any number of callers, one section under a lock at a time. `SendReceive`
is a `Subscribe`, a `Send` and an `UnSubscribe` by one caller. -/

namespace Subscription

/-- A call of `Subscribe` that has looked its topic up and has not returned. -/
structure Subscribing where
  ref : ℕ
  id : ID
  opts : SubscribeOptions
  /-- whether the multiplexer has the subscriber already -/
  added : Bool

/-- A call of `Send` that has looked its topic up and has not returned. -/
structure Sending where
  ref : ℕ
  event : MessageEvent
  /-- the copied subscribers that are still to be called, once they have been copied -/
  remaining : Option (List (Σ _ : ID, CallBackCoRelation))
  /-- the subscribers whose callback has been called -/
  offered : List ID
  /-- the subscribers that were subscribed when the call began, if they want its message -/
  expected : List ID

structure Report where
  event : MessageEvent
  offered : List ID
  /-- the subscribers that were subscribed all the time, if they want the message -/
  owed : List ID

structure State where
  server : WSServer
  nextID : ID
  subscribing : List Subscribing
  sending : List Sending
  /-- the subscriptions for which `Subscribe` has returned -/
  subscribed : FinMap ID SubscribeOptions
  /-- those that their own `UnSubscribe` or the end of their context has ended -/
  ended : List ID
  reports : List Report

def State.initial : State := ⟨.initial, 0, [], [], ∅, [], []⟩

inductive Action where
  | subscribe (opts : SubscribeOptions)
  | add (i : ℕ)
  /-- it records the subscription and returns -/
  | record (i : ℕ)
  | unSubscribe (topic : String) (id : ID)
  /-- the context of a subscriber in the multiplexer of a topic ends -/
  | contextDone (ref : ℕ) (id : ID)
  | send (topic : String) (payload : List UInt8) (props : MessageHeaders)
  /-- `Notify` copies the subscribers -/
  | clone (i : ℕ)
  /-- `Notify` comes to one of them, whose callback may return an error -/
  | notify (i j : ℕ) (err : Bool)
  /-- `Notify` has gone through all of them -/
  | finish (i : ℕ)

def callBack (opts : SubscribeOptions) : CallBackCoRelation :=
  ⟨opts.props.getCorrelationID, opts.filter⟩

/-- The subscribers of a topic that want an event, as long as their subscriptions last. -/
def State.expecting (s : State) (event : MessageEvent) : List ID :=
  (s.subscribed.entries.filter fun e =>
    e.2.topic == event.topic && (callBack e.2).wants event && e.1 ∉ s.ended).map Sigma.fst

/-- `Send` returns. -/
def State.returned (s : State) (call : Sending) (i : ℕ) : State :=
  { s with
    sending := s.sending.eraseIdx i
    reports := ⟨call.event, call.offered, call.expected.filter (· ∉ s.ended)⟩ :: s.reports }

def step (config : QueueConfig) (s : State) : Action → Option State
  | .subscribe opts =>
    match validateSubscribeOptions opts with
    | .error _ => none
    | .ok () =>
      let (ref, server) := s.server.getOrCreateTopic opts.topic
      some { s with
        server
        nextID := s.nextID + 1
        subscribing := ⟨ref, s.nextID, opts, false⟩ :: s.subscribing }
  | .add i =>
    match s.subscribing[i]? with
    | some ⟨ref, id, opts, false⟩ =>
      some { s with
        server := s.server.addSubscriber ref id opts.props.getCorrelationID opts.filter
        subscribing := s.subscribing.set i ⟨ref, id, opts, true⟩ }
    | _ => none
  | .record i =>
    match s.subscribing[i]? with
    | some ⟨ref, id, opts, true⟩ =>
      some { s with
        server := s.server.recordLocal ref id
        subscribing := s.subscribing.eraseIdx i
        subscribed := s.subscribed.insert id opts }
    | _ => none
  | .unSubscribe topic id =>
    let own := (s.subscribed.lookup id).any fun opts => opts.topic == topic
    some { s with
      server := s.server.unSubscribe topic id
      ended := if own then id :: s.ended else s.ended }
  | .contextDone ref id =>
    match (s.server.objects ref).mx.lookup id with
    | none => none
    | some _ =>
      some { s with server := s.server.contextDone ref id, ended := id :: s.ended }
  | .send topic payload props =>
    match validateSendRequest config topic payload props with
    | .error _ => none
    | .ok () =>
      let event : MessageEvent := ⟨s.nextID, topic, payload, props⟩
      let (ref, server) := s.server.getOrCreateTopic topic
      some { s with
        server
        nextID := s.nextID + 1
        sending := ⟨ref, event, none, [], s.expecting event⟩ :: s.sending }
  | .clone i =>
    match s.sending[i]? with
    | some ⟨ref, event, none, offered, expected⟩ =>
      some { s with
        sending := s.sending.set i
          ⟨ref, event, some (s.server.objects ref).mx.cloneSubscribers, offered, expected⟩ }
    | _ => none
  | .notify i j err =>
    match s.sending[i]? with
    | some ⟨ref, event, some remaining, offered, expected⟩ =>
      match remaining[j]? with
      | none => none
      | some ⟨id, next⟩ =>
        let remaining := remaining.eraseIdx j
        if next.wants event then
          let call := ⟨ref, event, some remaining, id :: offered, expected⟩
          -- an error ends the loop
          if err then some (s.returned call i)
          else some { s with sending := s.sending.set i call }
        else
          some { s with
            sending := s.sending.set i ⟨ref, event, some remaining, offered, expected⟩ }
    | _ => none
  | .finish i =>
    match s.sending[i]? with
    | some ⟨ref, event, some [], offered, expected⟩ =>
      some (s.returned ⟨ref, event, some [], offered, expected⟩ i)
    | _ => none

def system (config : QueueConfig) : TransitionSystem State Action where
  init s := s = State.initial
  step := step config

end Subscription

end Formicary.Queue

import Formicary.Library.Transition
import Formicary.Model.Queue.SendReceiveMultiplexer

/-! # The topics of the channel queue client

`Subscribe`, `UnSubscribe` and `Send` of the in-process client, for any number of subscribers. What
becomes of a message that a callback refuses is left out. -/

namespace Formicary.Queue.ChannelTopics

structure TopicChannel where
  subscribers : FinSet ID
  multiplexer : SendReceiveMultiplexer

/-- A message that was sent. -/
structure Report where
  event : MessageEvent
  invoked : List ID
  /-- the subscribers that want it and had neither unsubscribed nor lost their context -/
  expected : List ID

structure State where
  topics : FinMap String TopicChannel
  nextID : ID
  /-- what was subscribed to -/
  subscribed : FinMap ID SubscribeOptions
  /-- the subscriptions that `UnSubscribe` or the end of the context has ended -/
  ended : List ID
  reports : List Report

def State.initial : State := ⟨∅, 0, ∅, [], []⟩

inductive Action where
  | subscribe (opts : SubscribeOptions)
  | unSubscribe (topic : String) (id : ID)
  /-- the goroutine that `Add` has started sees the end of the subscriber's context -/
  | contextDone (topic : String) (id : ID)
  /-- the callbacks of `errors` return an error, and the loop goes by the given order -/
  | send (topic : String) (payload : List UInt8) (props : MessageHeaders) (errors order : List ID)

def callBack (opts : SubscribeOptions) : CallBackCoRelation :=
  ⟨opts.props.getCorrelationID, opts.filter⟩

namespace State

variable (s : State)

def topic (name : String) : TopicChannel := (s.topics.lookup name).getD ⟨∅, ∅⟩

/-- Whether the subscription is one to the topic and has not ended. -/
def isLive (name : String) (id : ID) (opts : SubscribeOptions) : Bool :=
  opts.topic == name && id ∉ s.ended

def expecting (event : MessageEvent) : List ID :=
  (s.subscribed.entries.filter fun e =>
    s.isLive event.topic e.1 e.2 && (callBack e.2).wants event).map Sigma.fst

def inOrder (t : TopicChannel) (order : List ID) : List (Σ _ : ID, CallBackCoRelation) :=
  order.filterMap fun id => (t.multiplexer.lookup id).map fun next => ⟨id, next⟩

end State

def step (config : QueueConfig) (s : State) : Action → Option State
  | .subscribe opts =>
    match validateSubscribeOptions opts with
    | .error _ => none
    | .ok () =>
      let t := s.topic opts.topic
      some { s with
        topics := s.topics.insert opts.topic ⟨t.subscribers.insert s.nextID (),
            t.multiplexer.add s.nextID opts.props.getCorrelationID opts.filter⟩
        nextID := s.nextID + 1
        subscribed := s.subscribed.insert s.nextID opts }
  | .unSubscribe topic id =>
    let t := s.topic topic
    if id ∈ t.subscribers then
      -- the multiplexer keeps the callback
      let t := { t with subscribers := t.subscribers.erase id }
      some { s with
        topics := if FinMap.size t.subscribers = 0 then s.topics.erase topic
          else s.topics.insert topic t
        ended := id :: s.ended }
    else some { s with topics := s.topics.insert topic t }
  | .contextDone topic id =>
    let t := s.topic topic
    if id ∈ t.multiplexer then
      some { s with
        topics := s.topics.insert topic { t with multiplexer := t.multiplexer.remove id }
        ended := id :: s.ended }
    else none
  | .send topic payload props errors order =>
    match validateSendRequest config topic payload props with
    | .error _ => none
    | .ok () =>
      let t := s.topic topic
      let event : MessageEvent := ⟨s.nextID, topic, payload, props⟩
      if order.Perm t.multiplexer.keys then
        let n := SendReceiveMultiplexer.notify event
          (fun id => if id ∈ errors then .error else .ok) false (State.inOrder t order) {}
        some { s with
          topics := s.topics.insert topic t
          nextID := s.nextID + 1
          reports := ⟨event, n.invoked, s.expecting event⟩ :: s.reports }
      else none

def system (config : QueueConfig) : TransitionSystem State Action where
  init s := s = State.initial
  step := step config

end Formicary.Queue.ChannelTopics

import Formicary.Model.Queue.WebSocketProtocol
import Formicary.Model.Queue.WebSocketServer

/-! # Subscriptions of an ant

The subscribers of an ant and what the queen sends them over the one connection between the two. -/

namespace Formicary.Queue.Delivery

/-- A subscriber of the ant, which keeps it under its identifier. -/
structure AntLocalSub where
  topic : String
  filter : MessageEvent → Bool
  /-- the identifier that the server gave to the subscription -/
  subID : Option ID

/-- `deliverToSubscribers` with the subscribers that it has yet to come to. -/
structure Delivering where
  event : MessageEvent
  remaining : List (Σ _ : ID, AntLocalSub)

structure Invocation where
  message : ID
  subscriber : ID
  /-- whether the subscriber was registered at that moment -/
  registered : Bool
  deriving DecidableEq, Repr

structure State where
  nextID : ID
  server : WSServer
  /-- the calls of the queen's `Send` that have looked the topic up -/
  sending : List (ℕ × WSFrame)
  /-- the frames for subscriptions of the connection that `Send` has collected -/
  outgoing : List WSFrame
  /-- the subscribe frame whose topic `handleSubscribeFrame` has looked up -/
  handling : Option (ℕ × WSFrame)
  sendCh : List WSFrame
  toServer : List WSFrame
  toAnt : List WSFrame
  subs : FinMap ID AntLocalSub
  subsByServerID : FinMap ID ID
  /-- the calls of the ant's `Subscribe` that have not sent their frame yet -/
  subscribing : List (Σ _ : ID, AntLocalSub)
  /-- the subscribers that wait for an answer, by the frame they sent -/
  pending : FinMap ID ID
  delivering : Option Delivering
  log : List Invocation

def State.initial : State := ⟨0, .initial, [], [], none, [], [], [], ∅, ∅, [], ∅, none, []⟩

/-- A section of a call by a local user of the server, which shares the topics with the ants. -/
inductive LocalSection where
  | getOrCreateTopic (name : String)
  | add (ref : ℕ) (id : ID) (correlationID : String) (filter : MessageEvent → Bool)
  | record (ref : ℕ) (id : ID)
  | contextDone (ref : ℕ) (id : ID)
  | unSubscribe (topic : String) (id : ID)

def LocalSection.run (srv : WSServer) : LocalSection → WSServer
  | .getOrCreateTopic name => (srv.getOrCreateTopic name).2
  | .add ref id correlationID filter => srv.addSubscriber ref id correlationID filter
  | .record ref id => srv.recordLocal ref id
  | .contextDone ref id => srv.contextDone ref id
  | .unSubscribe topic id => srv.unSubscribe topic id

inductive Action where
  /-- the ant's `Subscribe` registers the subscriber -/
  | subscribe (opts : SubscribeOptions)
  /-- it sends a subscribe frame, unless the frame cannot be written -/
  | sendSubscribe (i : ℕ) (fails : Bool)
  /-- it gives up waiting for the answer -/
  | timeout (frameID : ID)
  | unSubscribe (topic : String) (id : ID)
  /-- the ant's read pump takes the next frame -/
  | read
  /-- `deliverToSubscribers` comes to one of the subscribers -/
  | deliver (j : ℕ)
  | handle
  /-- `handleSubscribeFrame` records the subscription and confirms it -/
  | record
  | send (topic : String) (payload : List UInt8) (props : MessageHeaders)
  /-- it collects the remote subscriptions -/
  | collect (i : ℕ)
  /-- it puts a frame into the channel of the connection -/
  | enqueue (i : ℕ)
  | write
  | queen (call : LocalSection)

/-- The one connection of the ant. -/
def connID : ID := 0

/-- `wsServerConn.send`, which drops the frame if the channel is full. -/
def State.push (s : State) (frame : WSFrame) : State :=
  if s.sendCh.length < 256 then { s with sendCh := s.sendCh ++ [frame] } else s

def State.subscribersOf (s : State) (frame : WSFrame) : List (Σ _ : ID, AntLocalSub) :=
  let found := do
    let subID ← frame.subscriptionID
    let localID ← s.subsByServerID.lookup subID
    let sub ← s.subs.lookup localID
    return (⟨localID, sub⟩ : Σ _ : ID, AntLocalSub)
  match found with
  | some e => [e]
  | none => s.subs.entries.filter fun e => e.2.topic == frame.topic

/-- `dispatchFrame`; the answer to a subscribe frame goes to the call that waits for it. -/
def State.dispatchFrame (s : State) (frame : WSFrame) : State :=
  match frame.type with
  | .publish =>
    let event : MessageEvent := ⟨frame.id, frame.topic, frame.payload, frame.properties⟩
    { s with delivering := some ⟨event, s.subscribersOf frame⟩ }
  | .subscribeAck | .ack | .nack | .error =>
    match s.pending.lookup frame.id with
    | none => s
    | some localID =>
      let s := { s with pending := s.pending.erase frame.id }
      match frame.type, frame.subscriptionID with
      | .error, _ => s
      | _, none => s
      | _, some subID => { s with subsByServerID := s.subsByServerID.insert subID localID }
  | _ => s

def State.unSubscribe (s : State) (topic : String) (id : ID) : State :=
  match s.subs.lookup id with
  | none => s
  | some sub =>
    let s := { s with subs := s.subs.erase id }
    match sub.subID with
    | none => s
    | some subID =>
      { s with
        nextID := s.nextID + 1
        subsByServerID := s.subsByServerID.erase subID
        toServer := s.toServer ++ [newUnsubscribeFrame s.nextID topic subID] }

def step (config : QueueConfig) (s : State) : Action → Option State
  | .subscribe opts =>
    match validateSubscribeOptions opts with
    | .error _ => none
    | .ok () =>
      let sub : AntLocalSub := ⟨opts.topic, opts.filter, none⟩
      some { s with
        nextID := s.nextID + 1
        subs := s.subs.insert s.nextID sub
        subscribing := ⟨s.nextID, sub⟩ :: s.subscribing }
  | .sendSubscribe i fails =>
    match s.subscribing[i]? with
    | none => none
    | some ⟨id, sub⟩ =>
      let s := { s with subscribing := s.subscribing.eraseIdx i }
      if fails then some s
      else
        some { s with
          nextID := s.nextID + 1
          pending := s.pending.insert s.nextID id
          toServer := s.toServer ++ [newSubscribeFrame s.nextID sub.topic "" false] }
  | .timeout frameID => some { s with pending := s.pending.erase frameID }
  | .unSubscribe topic id => some (s.unSubscribe topic id)
  | .read =>
    match s.delivering, s.toAnt with
    | some ⟨_, _ :: _⟩, _ => none
    | _, [] => none
    | _, frame :: rest => some (State.dispatchFrame { s with toAnt := rest } frame)
  | .deliver j =>
    match s.delivering with
    | none => none
    | some ⟨event, remaining⟩ =>
      match remaining[j]? with
      | none => none
      | some ⟨id, sub⟩ =>
        let s := { s with delivering := some ⟨event, remaining.eraseIdx j⟩ }
        if sub.filter event then
          some { s with log := ⟨event.id, id, (s.subs.lookup id).isSome⟩ :: s.log }
        else some s
  | .handle =>
    match s.handling, s.toServer with
    | none, frame :: rest =>
      let s := { s with toServer := rest }
      match frame.type with
      | .subscribe =>
        let (ref, server) := s.server.getOrCreateTopic frame.topic
        some { s with server, handling := some (ref, frame) }
      | .unsubscribe =>
        let server := match frame.subscriptionID with
          | none => s.server
          | some subID => s.server.removeRemote frame.topic subID
        some (State.push { s with server } (newAckFrame frame.id))
      | _ => some s
    | _, _ => none
  | .record =>
    match s.handling with
    | none => none
    | some (ref, frame) =>
      let rs : WSRemoteSub := ⟨s.nextID, connID, frame.topic, frame.group⟩
      some (State.push
        { s with
          nextID := s.nextID + 1
          server := s.server.recordRemote ref rs
          handling := none }
        (newSubscribeAckFrame frame.id rs.id))
  | .send topic payload props =>
    match validateSendRequest config topic payload props with
    | .error _ => none
    | .ok () =>
      let (ref, server) := s.server.getOrCreateTopic topic
      some { s with
        server
        nextID := s.nextID + 1
        sending := (ref, newPublishFrame s.nextID topic payload props) :: s.sending }
  | .collect i =>
    match s.sending[i]? with
    | none => none
    | some (ref, frame) =>
      some { s with
        sending := s.sending.eraseIdx i
        outgoing := (s.server.objects ref).remoteSubs.values.map (fun _ => frame) ++ s.outgoing }
  | .enqueue i =>
    match s.outgoing[i]? with
    | none => none
    | some frame => some (State.push { s with outgoing := s.outgoing.eraseIdx i } frame)
  | .write =>
    match s.sendCh with
    | [] => none
    | frame :: rest => some { s with sendCh := rest, toAnt := s.toAnt ++ [frame] }
  | .queen call => some { s with server := call.run s.server }

def system (config : QueueConfig) : TransitionSystem State Action where
  init s := s = State.initial
  step := step config

end Formicary.Queue.Delivery

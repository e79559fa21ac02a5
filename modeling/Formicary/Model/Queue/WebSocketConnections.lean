import Formicary.Model.Queue.WebSocketServer

/-! # Connections of the websocket server

The read pump of a connection handles one frame after the other and removes the connection when it
ends; the write pump removes it when a write fails. -/

namespace Formicary.Queue.Connections

inductive Reading where
  | waiting
  /-- `handleSubscribeFrame` has looked the topic up -/
  | found (ref : ℕ) (topic group : String)
  /-- it has stored the subscription with the topic -/
  | stored (topic : String) (id : ID)
  /-- `handleUnsubscribeFrame` has deleted the subscription from the topic -/
  | deleted (topic : String) (subID : ID)
  /-- `removeConn` has copied the subscriptions -/
  | removing (subs : List (String × ID))
  | ended

structure Conn where
  subs : List (String × ID)
  reading : Reading
  /-- what `removeConn` has copied for the write pump -/
  writing : Option (List (String × ID))

structure State where
  server : WSServer
  conns : ID → Conn
  nextID : ID

def State.initial : State := ⟨.initial, fun _ => ⟨[], .waiting, none⟩, 0⟩

def State.setConn (s : State) (c : ID) (f : Conn → Conn) : State :=
  { s with conns := Function.update s.conns c (f (s.conns c)) }

/-- The last section of `removeConn`. The subscriptions need not be grouped by their topics: one
that is left empty leaves the map. -/
def removeSubs (srv : WSServer) (subs : List (String × ID)) : WSServer :=
  subs.foldl (fun srv e => (srv.removeRemote e.1 e.2).maybeDeleteTopic e.1) srv

inductive Action where
  | subscribe (c : ID) (topic group : String)
  | store (c : ID)
  | addSub (c : ID)
  | unsubscribe (c : ID) (topic : String) (subID : ID)
  | removeSub (c : ID)
  /-- the read pump ends, and copies the subscriptions -/
  | readFails (c : ID)
  | readRemoves (c : ID)
  | writeFails (c : ID)
  | writeRemoves (c : ID)
  /-- a message is published, or the queen subscribes -/
  | createTopic (topic : String)
  | recordLocal (ref : ℕ) (id : ID)
  | unSubscribe (topic : String) (id : ID)

def step (s : State) : Action → Option State
  | .subscribe c topic group =>
    match (s.conns c).reading with
    | .waiting =>
      let (ref, server) := s.server.getOrCreateTopic topic
      some { s.setConn c fun conn => { conn with reading := .found ref topic group } with server }
    | _ => none
  | .store c =>
    match (s.conns c).reading with
    | .found ref topic group =>
      some { s.setConn c fun conn => { conn with reading := .stored topic s.nextID } with
        server := s.server.recordRemote ref ⟨s.nextID, c, topic, group⟩
        nextID := s.nextID + 1 }
    | _ => none
  | .addSub c =>
    match (s.conns c).reading with
    | .stored topic id =>
      some (s.setConn c fun conn =>
        { conn with subs := conn.subs ++ [(topic, id)], reading := .waiting })
    | _ => none
  | .unsubscribe c topic subID =>
    match (s.conns c).reading with
    | .waiting =>
      some { s.setConn c fun conn => { conn with reading := .deleted topic subID } with
        server := s.server.removeRemote topic subID }
    | _ => none
  | .removeSub c =>
    match (s.conns c).reading with
    | .deleted topic subID =>
      some (s.setConn c fun conn =>
        { conn with subs := conn.subs.erase (topic, subID), reading := .waiting })
    | _ => none
  | .readFails c =>
    match (s.conns c).reading with
    | .waiting => some (s.setConn c fun conn => { conn with reading := .removing conn.subs })
    | _ => none
  | .readRemoves c =>
    match (s.conns c).reading with
    | .removing subs =>
      some { s.setConn c fun conn => { conn with reading := .ended } with
        server := removeSubs s.server subs }
    | _ => none
  | .writeFails c => some (s.setConn c fun conn => { conn with writing := some conn.subs })
  | .writeRemoves c =>
    match (s.conns c).writing with
    | some subs =>
      some { s.setConn c fun conn => { conn with writing := none } with
        server := removeSubs s.server subs }
    | none => none
  | .createTopic topic => some { s with server := (s.server.getOrCreateTopic topic).2 }
  | .recordLocal ref id => some { s with server := s.server.recordLocal ref id }
  | .unSubscribe topic id => some { s with server := s.server.unSubscribe topic id }

def system : TransitionSystem State Action where
  init s := s = State.initial
  step := step

end Formicary.Queue.Connections

import Formicary.Library.Transition
import Formicary.Model.Queue.OfflineBuffer
import Formicary.Model.Queue.WebSocketProtocol

/-! # Sending from an ant

`Send` of an ant publishes a message over the connection and waits for the server's answer, or puts
the message into the offline buffer. -/

namespace Formicary.Queue.Offline

structure WebSocketConfig where
  maxBufferSize : ℕ
  /-- in seconds -/
  bufferTTL : ℕ
  deriving DecidableEq, Repr

inductive Caller where
  | send
  /-- `drainBuffer` for one of its messages, with those that come after it -/
  | drain (m : BufferedMessage) (rest : List BufferedMessage)

inductive Stage where
  | register
  | write
  | writing
  /-- answer the calls that wait, in `triggerReconnect` after a failed write -/
  | reset
  | await
  /-- return with the answer, or with an error -/
  | finish (resp : Option WSFrame)

inductive Thread where
  /-- `Send` looks whether there is a connection -/
  | send (frame : WSFrame)
  /-- `Send` puts the message into the buffer -/
  | enqueue (frame : WSFrame)
  /-- `drainBuffer` asks for the messages of the buffer -/
  | dequeueAll
  /-- `drainBuffer` goes through them -/
  | drain (msgs : List BufferedMessage)
  /-- `drainBuffer` removes a message that it has published -/
  | remove (m : BufferedMessage) (rest : List BufferedMessage)
  | call (caller : Caller) (frame : WSFrame) (stage : Stage)
  /-- another goroutine answers the calls that wait, in `triggerReconnect` -/
  | lost
  | done

/-- A message for which `Send` has returned success. -/
structure Accepted where
  frameID : ID
  /-- the row of the buffer that it was put into, if it was -/
  row : Option BufferedMessage
  deriving DecidableEq

structure State where
  now : ℕ
  nextID : ID
  /-- whether the client has a connection -/
  connected : Bool
  /-- the frames that are registered as pending -/
  pending : List ID
  /-- the answer in the channel of a frame -/
  channel : ID → Option WSFrame
  buffer : OfflineBuffer
  threads : List Thread
  toServer : List WSFrame
  toAnt : List WSFrame
  accepted : List Accepted
  /-- the publish frames that the server has acknowledged -/
  acked : List ID
  /-- the frames that `drainBuffer` has made, with the rows they carry -/
  carried : List (ID × ℕ)

def State.initial : State :=
  ⟨0, 0, false, [], fun _ => none, .empty, [], [], [], [], [], []⟩

inductive Action where
  | send (topic : String) (payload : List UInt8) (props : MessageHeaders)
  /-- a goroutine does its next section -/
  | run (i : ℕ)
  /-- the write, the wait or the database operation of a goroutine fails -/
  | fail (i : ℕ)
  /-- `triggerReconnect` drops the connection -/
  | loseConnection
  /-- `connect` sets the new connection and starts `drainBuffer` -/
  | connect
  /-- the server receives a frame and acknowledges it, unless its channel is full -/
  | receive (j : ℕ) (full : Bool)
  /-- the read pump dispatches a frame -/
  | dispatch (j : ℕ)
  /-- a frame is lost with its connection -/
  | dropToServer (j : ℕ)
  | dropToAnt (j : ℕ)
  | tick

def State.setThread (s : State) (i : ℕ) (thread : Thread) : State :=
  { s with threads := s.threads.set i thread }

/-- `triggerReconnect` answers every pending call that has no answer yet. -/
def State.failPending (s : State) : State :=
  { s with
    pending := []
    channel := fun id =>
      if id ∈ s.pending ∧ s.channel id = none then some (newErrorFrame id "connection lost")
      else s.channel id }

/-- `dispatchFrame` for answers. -/
def State.dispatchFrame (s : State) (frame : WSFrame) : State :=
  match frame.type with
  | .subscribeAck | .ack | .nack | .error =>
    if frame.id ∈ s.pending ∧ s.channel frame.id = none then
      { s with channel := Function.update s.channel frame.id (some frame) }
    else s
  | _ => s

def State.runCall (s : State) (i : ℕ) (caller : Caller) (frame : WSFrame) : Stage → Option State
  | .register =>
    some (State.setThread
      { s with
        pending := frame.id :: s.pending
        channel := Function.update s.channel frame.id none }
      i (.call caller frame .write))
  | .write =>
    if s.connected then some (s.setThread i (.call caller frame .writing))
    else some (s.setThread i (.call caller frame (.finish none)))
  | .writing =>
    some (State.setThread { s with toServer := s.toServer ++ [frame] } i
      (.call caller frame .await))
  | .reset => some (s.failPending.setThread i (.call caller frame (.finish none)))
  | .await =>
    match s.channel frame.id with
    | none => none
    | some resp =>
      some (State.setThread { s with channel := Function.update s.channel frame.id none } i
        (.call caller frame (.finish (some resp))))
  | .finish resp =>
    let s := { s with pending := s.pending.filter (· ≠ frame.id) }
    match caller, resp with
    | .send, none => some (s.setThread i (.enqueue frame))
    | .send, some resp =>
      if resp.type = .error then some (s.setThread i .done)
      else
        some (State.setThread { s with accepted := ⟨frame.id, none⟩ :: s.accepted } i .done)
    | .drain _ _, none => some (s.setThread i .done)
    -- an answer of any kind
    | .drain m rest, some _ => some (s.setThread i (.remove m rest))

def State.runThread (wsCfg : WebSocketConfig) (s : State) (i : ℕ) : Thread → Option State
  | .send frame =>
    if s.connected then some (s.setThread i (.call .send frame .register))
    else some (s.setThread i (.enqueue frame))
  | .enqueue frame =>
    match s.buffer.enqueue wsCfg.maxBufferSize wsCfg.bufferTTL s.now frame.topic frame.payload
        frame.properties with
    | .error _ => some (s.setThread i .done)
    | .ok buffer =>
      let row := s.buffer.newRow wsCfg.bufferTTL s.now frame.topic frame.payload frame.properties
      some (State.setThread
        { s with buffer, accepted := ⟨frame.id, some row⟩ :: s.accepted } i .done)
  | .dequeueAll =>
    let (msgs, buffer) := s.buffer.dequeueAll s.now
    some (State.setThread { s with buffer } i (if msgs = [] then .done else .drain msgs))
  | .drain [] => some (s.setThread i .dequeueAll)
  | .drain (m :: rest) =>
    if s.connected then
      let frame := newPublishFrame s.nextID m.topic m.payload m.properties
      some (State.setThread
        { s with nextID := s.nextID + 1, carried := (frame.id, m.id) :: s.carried }
        i (.call (.drain m rest) frame .register))
    else some (s.setThread i .done)
  | .remove m rest =>
    some (State.setThread { s with buffer := s.buffer.remove m.id } i (.drain rest))
  | .call caller frame stage => s.runCall i caller frame stage
  | .lost => some (s.failPending.setThread i .done)
  | .done => none

def State.failThread (s : State) (i : ℕ) : Thread → Option State
  | .enqueue _ => some (s.setThread i .done)
  -- the query after the pruning
  | .dequeueAll =>
    some (State.setThread { s with buffer := s.buffer.pruneExpired s.now } i .done)
  | .remove _ rest => some (s.setThread i (.drain rest))
  | .call caller frame .writing =>
    some (State.setThread { s with connected := false } i (.call caller frame .reset))
  -- the answer does not come in time
  | .call caller frame .await => some (s.setThread i (.call caller frame (.finish none)))
  | _ => none

def step (config : QueueConfig) (wsCfg : WebSocketConfig) (s : State) : Action → Option State
  | .send topic payload props =>
    match validateSendRequest config topic payload props with
    | .error _ => none
    | .ok () =>
      some { s with
        nextID := s.nextID + 1
        threads := s.threads ++ [.send (newPublishFrame s.nextID topic payload props)] }
  | .run i => s.threads[i]?.bind (s.runThread wsCfg i)
  | .fail i => s.threads[i]?.bind (s.failThread i)
  | .loseConnection => some { s with connected := false, threads := s.threads ++ [.lost] }
  | .connect =>
    if s.connected then none
    else some { s with connected := true, threads := s.threads ++ [.dequeueAll] }
  | .receive j full =>
    match s.toServer[j]? with
    | none => none
    | some frame =>
      let s := { s with toServer := s.toServer.eraseIdx j }
      if full then some s
      else
        some { s with
          acked := frame.id :: s.acked
          toAnt := s.toAnt ++ [newAckFrame frame.id] }
  | .dispatch j =>
    s.toAnt[j]?.map fun frame =>
      State.dispatchFrame { s with toAnt := s.toAnt.eraseIdx j } frame
  | .dropToServer j => some { s with toServer := s.toServer.eraseIdx j }
  | .dropToAnt j => some { s with toAnt := s.toAnt.eraseIdx j }
  | .tick => some { s with now := s.now + 1 }

def system (config : QueueConfig) (wsCfg : WebSocketConfig) : TransitionSystem State Action where
  init s := s = State.initial
  step := step config wsCfg

end Formicary.Queue.Offline

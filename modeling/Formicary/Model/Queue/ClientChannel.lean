import Formicary.Library.Transition
import Formicary.Model.Queue.SendReceiveMultiplexer

/-! # Redelivery in the channel queue client

The in-process queue client with one subscriber, which refuses every message that it is given. -/

namespace Formicary.Queue.ClientChannel

/-- The options of the one subscription. A dead-letter topic that is not configured is empty. -/
structure Subscriber where
  topic : String
  correlationID : String := ""
  filter : MessageEvent → Bool := fun _ => true
  deadLetterQueue : String := ""

/-- Whether `Notify` calls the subscriber for an event. -/
def Subscriber.wants (sub : Subscriber) (event : MessageEvent) : Bool :=
  CallBackCoRelation.wants ⟨sub.correlationID, sub.filter⟩ event

/-- A message together with the one that the sender of the topic sent and that it is a copy of. -/
structure Copy where
  event : MessageEvent
  root : ID
  deriving DecidableEq

/-- What the subscriber and the dead-letter topic get to see of a message that was sent. -/
inductive Mark where
  | delivered (root : ID)
  | deadLettered (root : ID)
  deriving DecidableEq, Repr

structure State where
  nextID : ID
  /-- refusals by message -/
  retries : FinMap ID ℕ
  /-- deliveries that the subscriber has not answered yet -/
  outstanding : List Copy
  redeliveryCh : List Copy
  /-- the goroutines that wait to send a payload again -/
  delayed : List Copy
  /-- what has happened, the latest first -/
  log : List Mark

def State.initial : State := ⟨0, ∅, [], [], [], []⟩

inductive Action where
  /-- `Send` by a user of the topic -/
  | send (payload : List UInt8) (props : MessageHeaders)
  /-- the subscriber refuses a delivery; the context that came with it may have ended, and the
  redelivery handler may be waiting for a message -/
  | nack (i : ℕ) (ctxErr receiving : Bool)
  /-- a waiting goroutine sends its payload again -/
  | resend (i : ℕ) (ctxErr : Bool)
  /-- `handleRedelivery` takes the next message -/
  | redeliver

variable (config : QueueConfig) (sub : Subscriber)

/-- `Notify` for the one subscriber of the topic. -/
def notify (s : State) (copy : Copy) : State :=
  if sub.wants copy.event then
    { s with
      outstanding := s.outstanding ++ [copy]
      log := .delivered copy.root :: s.log }
  else s

/-- `Send` to a topic of a message with the given root; an error leaves everything as it is. -/
def send (s : State) (ctxErr : Bool) (topic : String) (payload : List UInt8)
    (props : MessageHeaders) (root : ID) : Except String State :=
  if ctxErr then .error "context cancelled"
  else
    match validateSendRequest config topic payload props with
    | .error err => .error err
    | .ok () =>
      let copy : Copy := ⟨⟨s.nextID, topic, payload, props⟩, root⟩
      let s := { s with nextID := s.nextID + 1 }
      .ok (if topic = sub.topic then notify sub s copy else s)

/-- The headers of a message that goes to the dead-letter topic. -/
def deadLetterHeaders (event : MessageEvent) (retryCount : ℕ) : MessageHeaders :=
  ((event.properties.insert "RetryCount" (toString retryCount)).insert "OriginalTopic"
    event.topic).insert "Error" "Max retries exceeded"

/-- The wrapped `nack` of a delivery. -/
def refuse (s : State) (copy : Copy) (ctxErr receiving : Bool) : State :=
  let retryCount := (s.retries.lookup copy.event.id).getD 0 + 1
  let s := { s with retries := s.retries.insert copy.event.id retryCount }
  if config.retryMax ≤ retryCount then
    -- the acknowledgement that follows has no effect, since the delivery is already answered
    if sub.deadLetterQueue = "" then s
    else
      match send config sub { s with log := .deadLettered copy.root :: s.log } ctxErr
          sub.deadLetterQueue copy.event.payload (deadLetterHeaders copy.event retryCount)
          copy.root with
      | .ok s => { s with retries := s.retries.erase copy.event.id }
      | .error _ => s
  else
    -- a message that finds the channel full is lost, but not the one that is sent again
    let room := s.redeliveryCh.length < config.maxConnections ∨ receiving ∧ s.redeliveryCh = []
    { s with
      delayed := s.delayed ++ [copy]
      redeliveryCh := if room then s.redeliveryCh ++ [copy] else s.redeliveryCh }

def step (s : State) : Action → Option State
  | .send payload props =>
    (send config sub s false sub.topic payload props s.nextID).toOption
  | .nack i ctxErr receiving =>
    s.outstanding[i]?.map fun copy =>
      refuse config sub { s with outstanding := s.outstanding.eraseIdx i } copy ctxErr receiving
  | .resend i ctxErr =>
    s.delayed[i]?.map fun copy =>
      let s := { s with delayed := s.delayed.eraseIdx i }
      match send config sub s ctxErr copy.event.topic copy.event.payload copy.event.properties
          copy.root with
      | .ok s => s
      | .error _ => s
  | .redeliver =>
    match s.redeliveryCh with
    | [] => none
    | copy :: rest => some (notify sub { s with redeliveryCh := rest } copy)

/-- The client with its one subscriber, which refuses every delivery. -/
def system : TransitionSystem State Action where
  init s := s = State.initial
  step := step config sub

end Formicary.Queue.ClientChannel

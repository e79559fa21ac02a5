import Formicary.Model.Queue.Message

/-! # The multiplexer of a topic

The subscribers of one topic by identifier. -/

namespace Formicary.Queue

/-- What the multiplexer keeps of a subscriber. -/
structure CallBackCoRelation where
  correlationID : String
  filter : MessageEvent → Bool

def CallBackCoRelation.wants (next : CallBackCoRelation) (event : MessageEvent) : Bool :=
  (next.correlationID == "" || next.correlationID == event.coRelationID) && next.filter event

abbrev SendReceiveMultiplexer := FinMap ID CallBackCoRelation

namespace SendReceiveMultiplexer

def add (mx : SendReceiveMultiplexer) (id : ID) (correlationID : String)
    (filter : MessageEvent → Bool) : SendReceiveMultiplexer :=
  mx.insert id ⟨correlationID, filter⟩

def remove (mx : SendReceiveMultiplexer) (id : ID) : SendReceiveMultiplexer :=
  mx.erase id

def cloneSubscribers (mx : SendReceiveMultiplexer) : List (Σ _ : ID, CallBackCoRelation) :=
  mx.entries

/-- How a subscriber takes a message. -/
inductive Reply where
  | ok
  | error
  /-- the channel that the message goes into after the callback is full, and nobody reads it -/
  | blocked
  deriving DecidableEq, Repr

/-- What a call of `Notify` has done so far. -/
structure Notification where
  invoked : List ID := []
  sent : ℕ := 0
  acks : ℕ := 0
  returned : Bool := true
  deriving DecidableEq, Repr

/-- The loop of `Notify` over the copied subscribers, for a message that is older than the commit
timeout or not. -/
def notify (event : MessageEvent) (reply : ID → Reply) (old : Bool) :
    List (Σ _ : ID, CallBackCoRelation) → Notification → Notification
  | [], n => n
  | ⟨id, next⟩ :: rest, n =>
    if next.correlationID = "" ∨ next.correlationID = event.coRelationID then
      let n := { n with sent := n.sent + 1 }
      if next.filter event then
        let n := { n with invoked := n.invoked ++ [id] }
        match reply id with
        | .ok => notify event reply old rest n
        | .error => n
        | .blocked => { n with returned := false }
      else notify event reply old rest n
    else notify event reply old rest { n with acks := if old then n.acks + 1 else n.acks }

end SendReceiveMultiplexer

end Formicary.Queue

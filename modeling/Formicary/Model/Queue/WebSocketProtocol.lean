import Formicary.Model.Queue.Message

/-! # Frames of the websocket queue

The envelope of everything that the queen and an ant exchange over their connection. -/

namespace Formicary.Queue

inductive WSFrameType where
  | subscribe
  | unsubscribe
  | publish
  | ack
  | nack
  | ping
  | pong
  | error
  | subscribeAck
  deriving DecidableEq, Repr

/-- A frame. The identifier of a subscription is absent where the source has an empty one. -/
structure WSFrame where
  type : WSFrameType
  id : ID
  topic : String := ""
  subscriptionID : Option ID := none
  payload : List UInt8 := []
  properties : MessageHeaders := ∅
  group : String := ""
  shared : Bool := false
  error : String := ""
  deriving DecidableEq

def newSubscribeFrame (id : ID) (topic group : String) (shared : Bool) : WSFrame :=
  { type := .subscribe, id, topic, group, shared }

def newUnsubscribeFrame (id : ID) (topic : String) (subID : ID) : WSFrame :=
  { type := .unsubscribe, id, topic, subscriptionID := some subID }

def newPublishFrame (id : ID) (topic : String) (payload : List UInt8) (props : MessageHeaders) :
    WSFrame :=
  { type := .publish, id, topic, payload, properties := props }

def newAckFrame (frameID : ID) : WSFrame := { type := .ack, id := frameID }

def newErrorFrame (frameID : ID) (errMsg : String) : WSFrame :=
  { type := .error, id := frameID, error := errMsg }

/-- The frame with which the queen confirms a subscription. -/
def newSubscribeAckFrame (frameID subID : ID) : WSFrame :=
  { type := .subscribeAck, id := frameID, subscriptionID := some subID }

end Formicary.Queue

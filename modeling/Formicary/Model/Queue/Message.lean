import Formicary.Library.FinMap

/-! # Messages

Message headers and events, and the checks that every queue client makes before it sends a message
or takes a subscription. -/

namespace Formicary.Queue

abbrev ID := ℕ

/-! ## Headers -/

abbrev MessageHeaders := FinMap String String

namespace MessageHeaders

def correlationIDKey : String := "CorrelationID"

def replyTopicKey : String := "ReplyTopic"

/-- A header that is not set reads as the empty string. -/
def get (h : MessageHeaders) (key : String) : String := (h.lookup key).getD ""

def getCorrelationID (h : MessageHeaders) : String := h.get correlationIDKey

def getReplyTopic (h : MessageHeaders) : String := h.get replyTopicKey

end MessageHeaders

structure MessageEvent where
  id : ID
  topic : String
  payload : List UInt8
  properties : MessageHeaders
  deriving DecidableEq

def MessageEvent.coRelationID (event : MessageEvent) : String :=
  event.properties.getCorrelationID

/-- The fields of `QueueConfig` that sending and redelivery read. -/
structure QueueConfig where
  maxMessageSize : ℕ
  maxConnections : ℕ
  retryMax : ℕ
  deriving DecidableEq, Repr

/-! ## Validation -/

/-- `isValidTopicNameChar`; consumer groups take the same characters. -/
def isValidTopicNameChar (c : Char) : Bool :=
  ('a' ≤ c && c ≤ 'z') || ('A' ≤ c && c ≤ 'Z') || ('0' ≤ c && c ≤ '9') ||
    c == '.' || c == '_' || c == '-'

def validateTopic (topic : String) : Except String Unit :=
  if topic = "" then .error "topic name cannot be empty"
  else if topic.utf8ByteSize > 249 then
    .error "topic name cannot be longer than 249 characters"
  else if topic = "." ∨ topic = ".." then .error ("invalid topic name: " ++ topic)
  else
    match topic.toList.find? fun c => !isValidTopicNameChar c with
    | some c => .error ("invalid character in topic name: " ++ c.toString)
    | none => .ok ()

def validateHeaderKey (key : String) : Except String Unit :=
  if key = "" then .error "header key cannot be empty"
  else if key.utf8ByteSize > 256 then .error "header key too long (max 256 characters)"
  else if key.toList.any fun c => c.toNat > 127 then
    .error "header key must contain only ASCII characters"
  else .ok ()

def validateHeaderValue (value : String) : Except String Unit :=
  if value.utf8ByteSize > 32 * 1024 then .error "header value too long (max 32KB)" else .ok ()

/-- The text that a caller puts in front of an error that it passes on. -/
def wrapError (context : String) (result : Except String Unit) : Except String Unit :=
  result.mapError fun err => context ++ ": " ++ err

def validateHeader (key value : String) : Except String Unit := do
  wrapError ("invalid header key '" ++ key ++ "'") (validateHeaderKey key)
  wrapError ("invalid header value for key '" ++ key ++ "'") (validateHeaderValue value)

def validateProperties (props : MessageHeaders) : Except String Unit := do
  props.entries.forM fun e => validateHeader e.1 e.2
  if props.getCorrelationID.utf8ByteSize > 128 then
    .error "correlation ID too long (max 128 characters)"
  else if props.getReplyTopic ≠ "" then
    wrapError "invalid reply topic" (validateTopic props.getReplyTopic)
  else .ok ()

def validateSendRequest (config : QueueConfig) (topic : String) (payload : List UInt8)
    (props : MessageHeaders) : Except String Unit := do
  validateTopic topic
  if payload = [] then .error "payload cannot be empty"
  else if payload.length > config.maxMessageSize then
    .error ("message size " ++ toString payload.length ++ " exceeds maximum allowed size " ++
      toString config.maxMessageSize)
  else validateProperties props

def validateGroupName (group : String) : Except String Unit :=
  if group = "" then .error "group name cannot be empty"
  else if group.utf8ByteSize > 249 then
    .error "group name cannot be longer than 249 characters"
  else
    match group.toList.find? fun c => !isValidTopicNameChar c with
    | some c => .error ("invalid character in Group name: " ++ c.toString)
    | none => .ok ()

/-- What a subscriber asks for. A filter that is not given accepts everything. -/
structure SubscribeOptions where
  topic : String
  props : MessageHeaders := ∅
  filter : MessageEvent → Bool := fun _ => true
  group : String := ""
  /-- whether a callback is given -/
  callback : Bool := true

def validateSubscribeOptions (opts : SubscribeOptions) : Except String Unit := do
  wrapError "invalid topic" (validateTopic opts.topic)
  if !opts.callback then .error "callback function is required"
  else do
    wrapError "invalid properties" (validateProperties opts.props)
    if opts.group = "" then .ok ()
    else wrapError "invalid Group name" (validateGroupName opts.group)

end Formicary.Queue

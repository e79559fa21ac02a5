import Formicary.Model.ResourceManager

/-! # The tasklet of an ant

Every message on the request topic is handled in a goroutine of its own. -/

namespace Formicary

namespace Tasklet

/-! ## Requests and their handlers -/

inductive Action where
  | execute
  | cancel
  | terminate
  | ping
  | list
  | unknown (action : String)
  deriving DecidableEq, Repr

/-- A request object, by what the tasklet reads and writes of it. -/
structure Request where
  action : Action
  jobRequestID : String
  taskType : String
  coRelationID : String
  /-- whether there is a cancel function -/
  cancel : Bool := false
  cancelled : Bool := false
  deriving DecidableEq, Repr

def taskKey (requestID taskType : String) : String :=
  requestID ++ "-" ++ taskType

def Request.key (req : Request) : String :=
  taskKey req.jobRequestID req.taskType

structure Response where
  status : RequestState
  errorMessage : String
  deriving DecidableEq, Repr

inductive Phase where
  | received
  | admitted
  | executing
  | responding (response : Response)
  /-- before the deferred `Remove` -/
  | returning
  | returned
  deriving DecidableEq, Repr

structure Call where
  request : Request
  replyTopic : String
  /-- whether the cancel function of the request has been called -/
  contextCancelled : Bool
  /-- whether `CancelJob` has taken the request out of the registry -/
  dropped : Bool
  phase : Phase
  deriving DecidableEq, Repr

/-- A message that was sent, and by which call. -/
structure Reply where
  call : ℕ
  topic : String
  coRelationID : String
  response : Response
  deriving DecidableEq, Repr

end Tasklet

/-- The calls in the order of their messages, the registry with the numbers of the calls, and what
has been sent. -/
structure Tasklet where
  calls : List Tasklet.Call
  requests : FinMap String ℕ
  replies : List Tasklet.Reply

namespace Tasklet

open RequestState

def empty : Tasklet := ⟨[], ∅, []⟩

variable (t : Tasklet)

def modify (i : ℕ) (f : Call → Call) : Tasklet :=
  { t with calls := t.calls.modify i f }

def setPhase (i : ℕ) (phase : Phase) : Tasklet :=
  t.modify i fun c => { c with phase := phase }

/-! ## The registry -/

def add (i : ℕ) : Except String Tasklet :=
  match t.calls[i]? with
  | none => .error "request not specified"
  | some c =>
    if c.request.key = "" then .error "request task key not specified for add"
    else if (t.requests.lookup c.request.key).isSome then .error "request task key already exists"
    else .ok { t with requests := t.requests.insert c.request.key i }

def cancel (key : String) : Except String Tasklet :=
  if key = "" then .error ("request task key not specified for cancel: " ++ key)
  else
    match t.requests.lookup key with
    | none => .error ("request not found for key: " ++ key)
    | some i =>
      match t.calls[i]? with
      | none => .error ("request not found for key: " ++ key)
      | some c =>
        if c.request.cancel then
          .ok (t.modify i fun c =>
            { c with
              contextCancelled := true
              request := { c.request with cancelled := true } })
        else .error "request cancel not found"

/-- `CancelJob`, which comes upon the requests in some order. -/
def cancelJob (requestID : String) : List ℕ → Tasklet
  | [] => t
  | i :: order =>
    match t.calls[i]? with
    | none => cancelJob requestID order
    | some c =>
      if c.request.jobRequestID = requestID ∧ c.request.cancel then
        { t.modify i fun c => { c with contextCancelled := true, dropped := true } with
          requests := t.requests.erase c.request.key }
      else cancelJob requestID order

def remove (i : ℕ) : Except String Tasklet :=
  match t.calls[i]? with
  | none => .error "request not specified"
  | some c =>
    if c.request.key = "" then .error "request task key not specified to remove"
    else if (t.requests.lookup c.request.key).isNone then .error "request task key not found"
    else .ok { t with requests := t.requests.erase c.request.key }

def count : ℕ := t.requests.size

/-- `GetAllocations`, which comes upon the requests in some order. -/
def getAllocations (antID antTopic : String) (now : Time) (order : List ℕ) :
    FinMap String Resource.AntAllocation :=
  order.foldl (fun allocations i =>
    match t.calls[i]? with
    | none => allocations
    | some c =>
      allocations.insert c.request.jobRequestID
        (Resource.newAntAllocation antID antTopic c.request.jobRequestID c.request.taskType now))
    ∅

/-! ## Handling requests -/

/-- The start of `handleRequest`, which sets the cancel function. -/
def newCall (action : Action) (jobRequestID taskType coRelationID replyTopic : String) : Call where
  request := { action, jobRequestID, taskType, coRelationID, cancel := true }
  replyTopic := replyTopic
  contextCancelled := false
  dropped := false
  phase := .received

/-- The response to an execution that has failed is made up by the handler. -/
def responseOf : Except String RequestState → Response
  | .ok status => ⟨status, ""⟩
  | .error err => ⟨failed, err⟩

/-- `sendResponse`. The queue takes every message whose context is not cancelled. -/
def sendResponse (i : ℕ) (c : Call) (response : Response) : Tasklet :=
  if c.contextCancelled then t
  else { t with replies := t.replies ++ [⟨i, c.replyTopic, c.request.coRelationID, response⟩] }

/-- What a handler does between two points where others may come in. -/
inductive Move where
  | preExecute (proceed : Bool)
  | add
  | execute (result : Except String RequestState)
  /-- what is done about the actions that are not registered -/
  | answer (result : Except String RequestState)
  | respond
  | remove
  /-- the whole of a `CANCEL` -/
  | cancel

/-- `handleRequest`, move by move. -/
def advance (i : ℕ) (c : Call) : Move → Option Tasklet
  | .preExecute proceed =>
    if c.phase = .received ∧ c.request.action = .execute then
      some (t.setPhase i (if proceed then .admitted else .returned))
    else none
  | .add =>
    if c.phase = .admitted then
      match t.add i with
      | .ok t => some (t.setPhase i .executing)
      | .error _ => some (t.setPhase i .returned)
    else none
  | .execute result =>
    if c.phase = .executing then some (t.setPhase i (.responding (responseOf result))) else none
  | .answer result =>
    if c.phase = .received ∧ c.request.action ≠ .execute ∧ c.request.action ≠ .cancel then
      some (t.setPhase i (.responding (responseOf result)))
    else none
  | .respond =>
    match c.phase with
    | .responding response =>
      some ((t.sendResponse i c response).setPhase i
        (if c.request.action = .execute then .returning else .returned))
    | _ => none
  | .remove =>
    if c.phase = .returning then some (((t.remove i).toOption.getD t).setPhase i .returned)
    else none
  | .cancel =>
    if c.phase = .received ∧ c.request.action = .cancel then
      some (((t.cancel c.request.key).toOption.getD t).setPhase i .returned)
    else none

inductive Step where
  | receive (action : Action) (jobRequestID taskType coRelationID replyTopic : String)
  | handle (i : ℕ) (move : Move)
  /-- an event of a task that was cancelled or paused -/
  | cancelTask (jobRequestID taskType : String)
  /-- an event of a job that was cancelled, paused or waits for an approval -/
  | cancelJob (jobRequestID : String) (order : List ℕ)

def step : Step → Option Tasklet
  | .receive action jobRequestID taskType coRelationID replyTopic =>
    some { t with
      calls := t.calls ++ [newCall action jobRequestID taskType coRelationID replyTopic] }
  | .handle i move => t.calls[i]?.bind fun c => t.advance i c move
  | .cancelTask jobRequestID taskType =>
    some ((t.cancel (taskKey jobRequestID taskType)).toOption.getD t)
  | .cancelJob jobRequestID order =>
    if order.Perm t.requests.values then some (t.cancelJob jobRequestID order) else none

def system : TransitionSystem Tasklet Step where
  init t := t = empty
  step := step

end Tasklet

end Formicary

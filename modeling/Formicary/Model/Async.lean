import Formicary.Library.Transition

/-! # Asynchronous tasks

The goroutines behind a watchdog task, which are the main handler and the loop that invokes the
watchdog handler until it returns an error, and the loop behind a polling task. -/

namespace Formicary.Async

/-- Where the goroutine of a loop is. -/
inductive Location where
  | invoke
  | select
  | returned
  deriving DecidableEq, Repr

inductive Action where
  /-- the context ends -/
  | cancel
  /-- the main handler of a watchdog task returns -/
  | mainReturns
  | invoke
  | done
  | tick
  deriving DecidableEq, Repr

/-- The steps of the loop. -/
def Action.own : Action → Bool
  | .invoke | .done | .tick => true
  | _ => false

/-- A `watchdogTask`, with the number of invocations of its watchdog handler so far, and when the
main handler returned or the context ended. -/
structure WatchdogTask where
  location : Location := .invoke
  running : Bool := true
  cancelled : Bool := false
  mainReturned : Bool := false
  errorQ : Option String := none
  invoked : ℕ := 0
  stoppedAt : Option ℕ := none
  deriving DecidableEq, Repr

namespace WatchdogTask

variable (watch : ℕ → Option String) (t : WatchdogTask)

def stop : WatchdogTask :=
  { t with stoppedAt := t.stoppedAt.or (some t.invoked) }

/-- The handler answers by the number of the invocation. -/
def invokeErrorHandler : WatchdogTask :=
  match watch t.invoked with
  | some err =>
    { t with invoked := t.invoked + 1, errorQ := some err, running := false, location := .returned }
  | none => { t with invoked := t.invoked + 1, location := .select }

def step : Action → Option WatchdogTask
  | .mainReturns =>
    if t.mainReturned then none else some { t with mainReturned := true, running := false }.stop
  | .cancel => some { t with cancelled := true }.stop
  | .invoke => if t.location = .invoke then some (t.invokeErrorHandler watch) else none
  -- the `break` leaves the `select` and not the loop
  | .done =>
    if t.location = .select ∧ t.cancelled then some { t with location := .invoke } else none
  | .tick => if t.location = .select then some { t with location := .invoke } else none

def system : TransitionSystem WatchdogTask Action where
  init t := t = {}
  step := step watch

end WatchdogTask

/-- What a completion handler returns. -/
structure Completion (α : Type) where
  completed : Bool
  result : Option α
  err : Option String

def Completion.settles {α : Type} (c : Completion α) : Prop :=
  c.completed = true ∨ c.err.isSome = true

/-- A `pollingTask`, with the number of invocations of its completion handler so far. With each
response in `resultQ` stands their number when it was sent. -/
structure PollingTask (α : Type) where
  location : Location := .invoke
  running : Bool := true
  cancelled : Bool := false
  invoked : ℕ := 0
  resultQ : List (Completion α × ℕ) := []

namespace PollingTask

variable {α : Type} (handler : ℕ → Completion α) (ctxErr : String) (t : PollingTask α)

/-- The handler answers by the number of the invocation. -/
def invokeHandlerAndCheckCompletion : PollingTask α × Bool :=
  let (c, invoked) :=
    if t.cancelled then (⟨true, none, some ctxErr⟩, t.invoked)
    else (handler t.invoked, t.invoked + 1)
  if t.running ∧ (c.completed ∨ c.err.isSome) then
    ({ t with invoked, resultQ := t.resultQ ++ [(c, invoked)], running := false }, c.completed)
  else ({ t with invoked }, false)

def step : Action → Option (PollingTask α)
  | .cancel => some { t with cancelled := true }
  | .invoke =>
    if t.location = .invoke then
      let (t', completed) := t.invokeHandlerAndCheckCompletion handler ctxErr
      some { t' with location := if completed then .returned else .select }
    else none
  | .done =>
    if t.location = .select ∧ t.cancelled then
      some { (t.invokeHandlerAndCheckCompletion handler ctxErr).1 with location := .returned }
    else none
  | .tick => if t.location = .select then some { t with location := .invoke } else none
  | .mainReturns => none

def system : TransitionSystem (PollingTask α) Action where
  init t := t = {}
  step := step handler ctxErr

end PollingTask

end Formicary.Async

import Formicary.Library.Text
import Formicary.Library.Transition
import Formicary.Model.Trigger

/-! # The S3 poller

A poll lists the objects of a bucket after the last key that was seen, evaluates and submits them
one by one, and stores the last key again. -/

namespace Formicary.S3Poller

structure S3Object where
  key : String
  etag : String
  size : ℤ
  lastModified : Time
  deriving DecidableEq, Repr

/-- The objects of a bucket in the order in which S3 lists them. -/
structure Bucket where
  objects : List S3Object
  sorted : (objects.map S3Object.key).Pairwise (· < ·)
  nonempty : ∀ object ∈ objects, object.key ≠ ""

/-- A job definition with a trigger that is polled. A stored definition has an id, and a trigger
without a name is refused. -/
structure Watched where
  jobDefinitionID : String
  trigger : TriggerDefinition
  identified : jobDefinitionID ≠ "" := by decide
  named : trigger.name ≠ "" := by decide
  /-- what the templates of the trigger yield for an object: whether it passes the filter -/
  templates : S3Object → Except Error Bool

/-- What `Submit` makes of an object that has passed. -/
inductive Submission where
  | saved
  /-- the request is there already -/
  | deduped
  | failed
  deriving DecidableEq, Repr

/-- What has become of a listed object. -/
inductive Outcome where
  /-- its key does not end in the suffix -/
  | skipped
  | evaluationFailed
  | notPassed
  | submissionFailed
  | deduped
  | submitted
  deriving DecidableEq, Repr

namespace Outcome

/-- The outcomes after which the poller moves on without remembering the key. -/
def failed : Outcome → Bool
  | evaluationFailed | submissionFailed => true
  | _ => false

def evaluated (outcome : Outcome) : Bool := outcome != skipped

/-- `Submit` was called and has returned no error. -/
def isSubmitted : Outcome → Bool
  | deduped | submitted => true
  | _ => false

end Outcome

structure Surroundings where
  onConflict : OnConflict := .fail
  findFault : Option Error := none
  /-- the listing fails after some objects -/
  listed : Option ℕ := none
  evaluationFault : S3Object → TriggerStates.Statement → Option Error := fun _ _ => none
  submission : S3Object → Submission := fun _ => .saved
  /-- storing the first or the last key fails -/
  saveFault : Option Error := none
  freshID : String
  now : Time
  evaluatedAt : S3Object → Time := fun _ => now

variable (w : Watched)

def listing (bucket : Bucket) (lastSeenKey : String) : List S3Object :=
  bucket.objects.filter fun object =>
    Text.startsWith object.key w.trigger.keyPrefix &&
      (lastSeenKey == "" || decide (lastSeenKey < object.key))

def hasSuffix (object : S3Object) : Bool :=
  w.trigger.suffix == "" || w.trigger.suffix.toList.isSuffixOf object.key.toList

def matchesObject (object : S3Object) : Bool :=
  Text.startsWith object.key w.trigger.keyPrefix && hasSuffix w object

/-! ## Objects -/

/-- What becomes of an object, with the trigger states after it. -/
def process (env : Surroundings) (states : TriggerStates) (object : S3Object) :
    TriggerStates × Outcome :=
  if !hasSuffix w object then (states, .skipped)
  else
    match Evaluator.evaluate states w.jobDefinitionID w.trigger (w.templates object) env.onConflict
        (env.evaluatedAt object) env.freshID (env.evaluationFault object) with
    | (states, .error _) => (states, .evaluationFailed)
    | (states, .ok false) => (states, .notPassed)
    | (states, .ok true) =>
      match env.submission object with
      | .saved =>
        (states.recordFired w.jobDefinitionID w.trigger.name (env.evaluatedAt object)
          env.freshID, .submitted)
      | .deduped => (states, .deduped)
      | .failed => (states, .submissionFailed)

structure Loop where
  states : TriggerStates
  lastKey : String
  outcomes : List (S3Object × Outcome)

def visit (env : Surroundings) (loop : Loop) (object : S3Object) : Loop :=
  let (states, outcome) := process w env loop.states object
  { states := states
    lastKey := if outcome.failed then loop.lastKey else object.key
    outcomes := loop.outcomes ++ [(object, outcome)] }

/-! ## Polls -/

/-- The trigger states after a poll, and what has become of the listed objects. -/
structure Polled where
  states : TriggerStates
  outcomes : List (S3Object × Outcome)

/-- The first poll stores the time, and looks at no object. -/
def firstPoll (env : Surroundings) (states : TriggerStates) : TriggerStates :=
  match env.saveFault with
  | some _ => states
  | none =>
    (states.upsert env.onConflict
      { jobDefinitionID := w.jobDefinitionID
        triggerName := w.trigger.name
        lastSeenTime := env.now } env.freshID).toOption.getD states

/-- Stores the last key in the copy of the row that was read before the loop. -/
def storeKey (env : Surroundings) (state : TriggerState) (lastKey : String)
    (states : TriggerStates) : TriggerStates :=
  if lastKey ≠ "" ∧ lastKey ≠ state.lastSeenKey then
    match env.saveFault with
    | some _ => states
    | none =>
      (states.upsert env.onConflict
        { state with lastSeenKey := lastKey, lastSeenTime := env.now }
        env.freshID).toOption.getD states
  else states

def pollFrom (env : Surroundings) (bucket : Bucket) (state : TriggerState)
    (states : TriggerStates) : Polled :=
  let objects := listing w bucket state.lastSeenKey
  match env.listed with
  | some n =>
    -- the poll ends without storing a key
    let loop := (objects.take n).foldl (visit w env) ⟨states, "", []⟩
    ⟨loop.states, loop.outcomes⟩
  | none =>
    let loop := objects.foldl (visit w env) ⟨states, "", []⟩
    ⟨storeKey env state loop.lastKey loop.states, loop.outcomes⟩

def poll (env : Surroundings) (bucket : Bucket) (states : TriggerStates) : Polled :=
  match env.findFault with
  | some _ => ⟨states, []⟩
  | none =>
    match states.findByJobAndTrigger w.jobDefinitionID w.trigger.name with
    | .error _ => ⟨states, []⟩
    | .ok none => ⟨firstPoll w env states, []⟩
    | .ok (some state) => pollFrom w env bucket state states

/-! ## Histories -/

/-- The trigger states, and the outcomes of each poll, the last first. -/
structure History where
  states : TriggerStates
  polls : List (List (S3Object × Outcome))

/-- What happens to a trigger: polls, each with the objects that are there at its time, and the
evaluations and notes of the trigger that the poller does not make. -/
inductive Action where
  | poll (env : Surroundings) (bucket : Bucket)
  | incrementWindowCount (onConflict : OnConflict) (window now : Time) (freshID : String)
      (fault : TriggerStates.Statement → Option Error)
  | recordFired (now : Time) (freshID : String)

def Action.freshID : Action → String
  | .poll env _ => env.freshID
  | .incrementWindowCount _ _ _ freshID _ => freshID
  | .recordFired _ freshID => freshID

def perform (h : History) : Action → History
  | .poll env bucket =>
    let polled := poll w env bucket h.states
    ⟨polled.states, polled.outcomes :: h.polls⟩
  | .incrementWindowCount onConflict window now freshID fault =>
    { h with
      states := (h.states.incrementWindowCount w.jobDefinitionID w.trigger.name onConflict window
        now freshID fault).1 }
  | .recordFired now freshID =>
    { h with states := h.states.recordFired w.jobDefinitionID w.trigger.name now freshID }

def step (h : History) (action : Action) : Option History :=
  -- generated ids are new
  if action.freshID ≠ "" ∧ h.states.find? action.freshID = none then some (perform w h action)
  else none

def system : TransitionSystem History Action where
  init h := h.polls = []
  step := step w

end Formicary.S3Poller

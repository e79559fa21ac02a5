import Formicary.Model.Database
import Formicary.Model.QueryContext

/-! # Triggers and their state

The definition of a trigger is read from the YAML of its job. -/

namespace Formicary

inductive TriggerType where
  | webhook
  | s3
  | queue
  deriving DecidableEq, Repr

structure TriggerRateLimit where
  max : ℤ
  window : Time
  deriving DecidableEq, Repr

/-- What the modelled code reads of a trigger. -/
structure TriggerDefinition where
  type : TriggerType
  name : String
  /-- `Mode` of an S3 trigger is `notification` -/
  notification : Bool := false
  keyPrefix : String := ""
  suffix : String := ""
  rateLimit : Option TriggerRateLimit := none
  deriving DecidableEq, Repr

/-! ## State rows -/

/-- A row of the trigger states. A time that was never set is 0. -/
structure TriggerState where
  id : String := ""
  jobDefinitionID : String
  triggerName : String
  lastSeenKey : String := ""
  lastSeenTime : Time := 0
  windowStart : Time := 0
  windowCount : ℕ := 0
  deriving DecidableEq, Repr

/-- What becomes of an insertion that the unique index on the definition and the trigger refuses.
`Save` asks for an update of the row with the same id; MySQL updates the row that is in the way
instead. -/
inductive OnConflict where
  | fail
  | update
  deriving DecidableEq, Repr

abbrev TriggerStates := Table TriggerState.id

namespace TriggerStates

variable (states : TriggerStates) (jobDefinitionID triggerName : String)

def isFor (state : TriggerState) : Bool :=
  state.jobDefinitionID == jobDefinitionID && state.triggerName == triggerName

/-- Rows have ids, and the unique index on the definition and the trigger holds. -/
structure Sound (states : TriggerStates) : Prop where
  ids : ∀ s ∈ states, s.id ≠ ""
  unique : ∀ s ∈ states, ∀ s' ∈ states, isFor s.jobDefinitionID s.triggerName s' = true → s' = s

instance : DecidablePred Sound := fun states =>
  decidable_of_iff ((∀ s ∈ states, s.id ≠ "") ∧ ∀ s ∈ states, ∀ s' ∈ states,
      isFor s.jobDefinitionID s.triggerName s' = true → s' = s)
    ⟨fun h => ⟨h.1, h.2⟩, fun h => ⟨h.ids, h.unique⟩⟩

def select : Option TriggerState :=
  states.first? (isFor jobDefinitionID triggerName)

/-- Counts an evaluation in a window that has not expired. Returns the number of rows. -/
def increment (windowExpiry : Time) : TriggerStates × ℕ :=
  let active := fun state => isFor jobDefinitionID triggerName state &&
    decide (windowExpiry ≤ state.windowStart)
  (states.update active (fun state => { state with windowCount := state.windowCount + 1 })
    (fun _ => rfl), states.affected active)

/-- Notes the time at which a trigger has fired. Returns the number of rows. -/
def touch (now : Time) : TriggerStates × ℕ :=
  (states.update (isFor jobDefinitionID triggerName)
    (fun state => { state with lastSeenTime := now }) (fun _ => rfl),
    states.affected (isFor jobDefinitionID triggerName))

def violation : Error := ⟨.plain, "UNIQUE constraint failed"⟩

/-- An insertion under the primary key and the unique index. -/
def create (state : TriggerState) : Except Error TriggerStates :=
  if states.rows.any (isFor state.jobDefinitionID state.triggerName) then .error violation
  else
    match states.insert? state with
    | some states => .ok states
    | none => .error violation

/-- `Save` of a row that has an id: all columns are written. -/
def save (onConflict : OnConflict) (state : TriggerState) : Except Error TriggerStates :=
  match states.find? state.id with
  | some _ =>
    if states.rows.any fun other =>
        other.id != state.id && isFor state.jobDefinitionID state.triggerName other then
      .error violation
    else
      .ok (states.update (fun other => other.id == state.id)
        (fun other => { state with id := other.id }) (fun _ => rfl))
  | none =>
    match states.select state.jobDefinitionID state.triggerName, onConflict with
    | some old, .update =>
      .ok (states.update (fun other => other.id == old.id)
        (fun other => { state with id := other.id }) (fun _ => rfl))
    | _, _ => states.create state

/-- `Upsert`. A row without an id is given the generated one. -/
def upsert (onConflict : OnConflict) (state : TriggerState) (freshID : String) :
    Except Error TriggerStates :=
  states.save onConflict (if state.id = "" then { state with id := freshID } else state)

/-! ## Functions of several statements -/

inductive Statement where
  | increment
  | find
  | save
  | reread
  deriving DecidableEq, Repr

def required : Error := ⟨.plain, "job_definition_id and trigger_name are required"⟩

def findByJobAndTrigger : Except Error (Option TriggerState) :=
  if jobDefinitionID = "" ∨ triggerName = "" then .error required
  else .ok (states.select jobDefinitionID triggerName)

/-- Opens a window with the evaluation that found none. -/
def openWindow (onConflict : OnConflict) (now : Time) (freshID : String)
    (fault : Statement → Option Error) : TriggerStates × Except Error ℕ :=
  match fault .find with
  | some err => (states, .error err)
  | none =>
    let state := (states.select jobDefinitionID triggerName).getD
      { jobDefinitionID := jobDefinitionID, triggerName := triggerName }
    match fault .save with
    | some err => (states, .error err)
    | none =>
      match states.upsert onConflict { state with windowStart := now, windowCount := 1 }
          freshID with
      | .error err => (states, .error err)
      | .ok states => (states, .ok 1)

/-- `IncrementWindowCount`, when nothing comes between its statements. -/
def incrementWindowCount (onConflict : OnConflict) (window now : Time) (freshID : String)
    (fault : Statement → Option Error) : TriggerStates × Except Error ℕ :=
  if jobDefinitionID = "" ∨ triggerName = "" then (states, .error required)
  else
    match fault .increment with
    | some err => (states, .error err)
    | none =>
      let (counted, affected) := states.increment jobDefinitionID triggerName (now - window)
      if affected = 0 then
        openWindow counted jobDefinitionID triggerName onConflict now freshID fault
      else
        match fault .reread with
        | some err => (counted, .error err)
        | none =>
          match counted.select jobDefinitionID triggerName with
          | some state => (counted, .ok state.windowCount)
          | none => (counted, .error ⟨.notFound, "record not found"⟩)

/-- `RecordFired`. Its error is only logged. -/
def recordFired (now : Time) (freshID : String) : TriggerStates :=
  if jobDefinitionID = "" ∨ triggerName = "" then states
  else
    let (touched, affected) := states.touch jobDefinitionID triggerName now
    if affected = 0 then
      (touched.create
        { id := freshID
          jobDefinitionID := jobDefinitionID
          triggerName := triggerName
          lastSeenTime := now }).toOption.getD touched
    else touched

end TriggerStates

/-! ## Evaluation -/

namespace Evaluator

def checkAndIncrementRateLimit (states : TriggerStates) (jobDefinitionID triggerName : String)
    (limit : TriggerRateLimit) (onConflict : OnConflict) (now : Time) (freshID : String)
    (fault : TriggerStates.Statement → Option Error) : TriggerStates × Except Error Bool :=
  let (states, newCount) := states.incrementWindowCount jobDefinitionID triggerName onConflict
    limit.window now freshID fault
  (states, newCount.map fun count : ℕ => decide ((count : ℤ) ≤ limit.max))

/-- `Evaluate`, as to whether an event passes. What the templates of the filter, the parameters and
the dedup key yield is given. -/
def evaluate (states : TriggerStates) (jobDefinitionID : String) (trigger : TriggerDefinition)
    (templates : Except Error Bool) (onConflict : OnConflict) (now : Time) (freshID : String)
    (fault : TriggerStates.Statement → Option Error) : TriggerStates × Except Error Bool :=
  match templates with
  | .error err => (states, .error err)
  | .ok false => (states, .ok false)
  | .ok true =>
    match trigger.rateLimit with
    | none => (states, .ok true)
    | some limit =>
      if 0 < limit.max ∧ 0 < limit.window then
        checkAndIncrementRateLimit states jobDefinitionID trigger.name limit onConflict now
          freshID fault
      else (states, .ok true)

end Evaluator

end Formicary

import Formicary.Model.S3Poller

/-! # Rate limits

Evaluations of a trigger and polls of it run side by side. -/

namespace Formicary.RateLimit

open S3Poller

/-- A trigger with a rate limit. One whose bound or window is not positive is not checked. -/
structure Limited extends Watched where
  limit : TriggerRateLimit
  limited : trigger.rateLimit = some limit
  positive : 0 < limit.max
  lasting : 0 < limit.window

/-! ## Threads -/

/-- The loop of a poll at an object that is being evaluated. -/
structure PollLoop where
  /-- the row, as it was read before the loop -/
  state : TriggerState
  lastKey : String
  object : S3Object
  rest : List S3Object
  /-- the listing fails after the rest -/
  broken : Bool

inductive Caller where
  /-- a webhook or a message of a queue -/
  | event
  | poll (loop : PollLoop)

/-- The statement that a thread runs next, with the variables that it still needs. -/
inductive Thread where
  | poll
  | store (state : TriggerState)
  -- `IncrementWindowCount`
  | increment (caller : Caller) (now : Time)
  | find (caller : Caller) (now : Time)
  | save (caller : Caller) (state : TriggerState)
  /-- the evaluation was counted in a window -/
  | reread (caller : Caller) (window : ℕ)
  -- `Submit`
  | submit (caller : Caller)
  | touch (caller : Caller) (now : Time)
  | create (caller : Caller) (now : Time)
  | done

/-- The trigger states and the threads, with what has come of the evaluations. A window starts where
an evaluation that has found none sets the count to one. -/
structure World where
  clock : Time
  states : TriggerStates
  threads : List Thread := []
  /-- the windows started so far -/
  windows : ℕ := 0
  /-- the evaluations that have passed since the last window start -/
  passed : ℕ := 0
  /-- what polls have taken from the count since -/
  lost : ℕ := 0
  /-- those of the passed evaluations that an earlier window has counted -/
  late : ℕ := 0

/-- What a statement is given by what surrounds it. -/
structure Given where
  freshID : String
  bucket : Bucket := ⟨[], by simp, by simp⟩
  /-- the listing fails after some objects -/
  listed : Option ℕ := none
  submission : Submission := .saved

variable (l : Limited)

/-- The objects of a poll up to the next one that is evaluated. -/
def scan (now : Time) (state : TriggerState) (broken : Bool) (lastKey : String) :
    List S3Object → Thread
  | [] =>
    if broken then .done
    else if lastKey ≠ "" ∧ lastKey ≠ state.lastSeenKey then
      .store { state with lastSeenKey := lastKey, lastSeenTime := now }
    else .done
  | object :: rest =>
    if !hasSuffix l.toWatched object then scan now state broken object.key rest
    else
      match l.templates object with
      | .error _ => scan now state broken lastKey rest
      | .ok false => scan now state broken object.key rest
      | .ok true => .increment (.poll ⟨state, lastKey, object, rest, broken⟩) now

/-- Goes on after an evaluation and its submission. -/
def resume (now : Time) (failed : Bool) : Caller → Thread
  | .event => .done
  | .poll loop =>
    scan l now loop.state loop.broken (if failed then loop.lastKey else loop.object.key) loop.rest

def count (states : TriggerStates) : ℕ :=
  (states.select l.jobDefinitionID l.trigger.name).elim 0 TriggerState.windowCount

/-- What a poll stores. An error is only logged. -/
def World.store (world : World) : Except Error TriggerStates → World
  | .error _ => world
  | .ok states =>
    { world with
      states := states
      lost := world.lost + (count l world.states - count l states) }

def World.startWindow (world : World) (states : TriggerStates) : World :=
  { world with states := states, windows := world.windows + 1, passed := 0, lost := 0, late := 0 }

/-- The end of `checkAndIncrementRateLimit`. -/
def judge (world : World) (caller : Caller) (newCount window : ℕ) : World × Thread :=
  if (newCount : ℤ) ≤ l.limit.max then
    ({ world with
        passed := world.passed + 1
        late := if window = world.windows then world.late else world.late + 1 }, .submit caller)
  else (world, resume l world.clock false caller)

def statement (onConflict : OnConflict) (given : Given) (world : World) : Thread → World × Thread
  | .poll =>
    match world.states.select l.jobDefinitionID l.trigger.name with
    | none =>
      (world, .store
        { jobDefinitionID := l.jobDefinitionID
          triggerName := l.trigger.name
          lastSeenTime := world.clock })
    | some state =>
      let objects := listing l.toWatched given.bucket state.lastSeenKey
      match given.listed with
      | some n => (world, scan l world.clock state true "" (objects.take n))
      | none => (world, scan l world.clock state false "" objects)
  | .store state => (world.store l (world.states.upsert onConflict state given.freshID), .done)
  | .increment caller now =>
    let (states, affected) :=
      world.states.increment l.jobDefinitionID l.trigger.name (now - l.limit.window)
    ({ world with states := states },
      if affected = 0 then .find caller now else .reread caller world.windows)
  | .find caller now =>
    let state := (world.states.select l.jobDefinitionID l.trigger.name).getD
      { jobDefinitionID := l.jobDefinitionID, triggerName := l.trigger.name }
    (world, .save caller { state with windowStart := now, windowCount := 1 })
  | .save caller state =>
    match world.states.upsert onConflict state given.freshID with
    | .error _ => (world, resume l world.clock true caller)
    | .ok states => judge l (world.startWindow states) caller 1 (world.windows + 1)
  | .reread caller window =>
    match world.states.select l.jobDefinitionID l.trigger.name with
    | none => (world, resume l world.clock true caller)
    | some state => judge l world caller state.windowCount window
  | .submit caller =>
    (world,
      match given.submission with
      | .saved => .touch caller world.clock
      | .deduped => resume l world.clock false caller
      | .failed => resume l world.clock true caller)
  | .touch caller now =>
    let (states, affected) := world.states.touch l.jobDefinitionID l.trigger.name now
    ({ world with states := states },
      if affected = 0 then .create caller now else resume l world.clock false caller)
  | .create caller now =>
    ({ world with
        states := (world.states.create
          { id := given.freshID
            jobDefinitionID := l.jobDefinitionID
            triggerName := l.trigger.name
            lastSeenTime := now }).toOption.getD world.states },
      resume l world.clock false caller)
  | .done => (world, .done)

/-- Goes on after a statement that has failed. -/
def afterFault (now : Time) : Thread → Thread
  | .increment caller _ | .find caller _ | .save caller _ | .reread caller _ | .submit caller =>
    resume l now true caller
  -- the note of the time is not needed
  | .touch caller _ | .create caller _ => resume l now false caller
  | .poll | .store _ | .done => .done

/-! ## Interleavings -/

inductive Action where
  | wait (duration : ℕ)
  /-- an event that passes the filter of the trigger -/
  | receive
  | poll
  | run (i : ℕ) (given : Given)
  | fail (i : ℕ)

def step (onConflict : OnConflict) (world : World) : Action → Option World
  | .wait duration => some { world with clock := world.clock + duration }
  | .receive =>
    some { world with threads := world.threads ++ [.increment .event world.clock] }
  | .poll => some { world with threads := world.threads ++ [.poll] }
  | .run i given =>
    -- generated ids are new
    if given.freshID ≠ "" ∧ world.states.find? given.freshID = none then
      world.threads[i]?.map fun thread =>
        let (world, next) := statement l onConflict given world thread
        { world with threads := world.threads.set i next }
    else none
  | .fail i =>
    world.threads[i]?.map fun thread =>
      { world with threads := world.threads.set i (afterFault l world.clock thread) }

def system (onConflict : OnConflict) : TransitionSystem World Action where
  init world := TriggerStates.Sound world.states ∧ world.threads = [] ∧ world.passed = 0 ∧
    world.lost = 0 ∧ world.late = 0
  step := step l onConflict

end Formicary.RateLimit

import Formicary.Library.Transition
import Formicary.Model.Database

/-! # Leadership of the trigger managers

Every server publishes the heartbeat of its scheduler on one topic, and its trigger manager
subscribes to that topic without sharing, and to that of the changes of job definitions. -/

namespace Formicary.Trigger

/-- The leader state of a manager, with the variable of the goroutine that watches it, and the
definitions whose triggers it runs. -/
structure Leadership where
  isLeader : Bool := false
  lastLeaderEventAt : Time := 0
  wasLeader : Bool := false
  active : List String := []
  deriving DecidableEq, Repr

/-- The state changes of a job definition. -/
inductive StateChange where
  | updated
  | deleted
  | disabled
  | enabled
  deriving DecidableEq, Repr

namespace Leadership

variable (l : Leadership)

/-- `handleLeaderEvent`, which does not look at who has sent the event. -/
def handleLeaderEvent (now : Time) : Leadership :=
  { l with isLeader := true, lastLeaderEventAt := now }

def stopTriggersForDef (jobDefID : String) : Leadership :=
  { l with active := l.active.filter (· ≠ jobDefID) }

/-- `startTriggersForDef`, of a definition that is found, enabled and has triggers, or not. -/
def startTriggersForDef (jobDefID : String) (startable : Bool) : Leadership :=
  if startable then { l with active := jobDefID :: l.active } else l

/-- `handleJobDefLifecycle`, which does not look at how long ago the last heartbeat was. -/
def handleJobDefLifecycle (change : StateChange) (jobDefID : String) (startable : Bool) :
    Leadership :=
  match change with
  | .deleted | .disabled => l.stopTriggersForDef jobDefID
  | .updated | .enabled =>
    if l.isLeader then
      (l.stopTriggersForDef jobDefID).startTriggersForDef jobDefID startable
    else l

-- `JobSchedulerLeaderInterval`
variable (interval : Time)

def nowLeader (now : Time) : Bool :=
  l.isLeader && decide (now - l.lastLeaderEventAt < interval * 3)

/-- What `watchLeaderAndLoad` does when its ticker fires, given the definitions that
`loadAllTriggers` finds. -/
def watch (now : Time) (loaded : List String) : Leadership :=
  if l.nowLeader interval now && !l.wasLeader then
    { l with wasLeader := true, active := loaded ++ l.active }
  else if !l.nowLeader interval now && l.wasLeader then { l with wasLeader := false, active := [] }
  else l

end Leadership

/-! ## Several servers -/

variable {ι : Type*} [DecidableEq ι] (interval : Time)

/-- The managers of all servers, and the heartbeats on their way to each, by their source. -/
structure Cluster (ι : Type*) where
  clock : Time
  managers : ι → Leadership
  heartbeats : ι → List ι

namespace Cluster

def initial : Cluster ι := ⟨0, fun _ => {}, fun _ => []⟩

inductive Action (ι : Type*) where
  | send (source : ι)
  /-- a manager receives one of the heartbeats on their way to it -/
  | receive (i : ι) (n : ℕ)
  | tick (i : ι) (loaded : List String)
  /-- the event of a change of a definition is delivered to a manager -/
  | lifecycle (i : ι) (change : StateChange) (jobDefID : String) (startable : Bool)
  | wait (secs : ℕ)
  deriving DecidableEq, Repr

def step (s : Cluster ι) : Action ι → Option (Cluster ι)
  | .send source => some { s with heartbeats := fun i => s.heartbeats i ++ [source] }
  | .receive i n =>
    if n < (s.heartbeats i).length then
      some { s with
        managers := Function.update s.managers i ((s.managers i).handleLeaderEvent s.clock)
        heartbeats := Function.update s.heartbeats i ((s.heartbeats i).eraseIdx n) }
    else none
  | .tick i loaded =>
    some { s with
      managers := Function.update s.managers i ((s.managers i).watch interval s.clock loaded) }
  | .lifecycle i change jobDefID startable =>
    some { s with
      managers := Function.update s.managers i
        ((s.managers i).handleJobDefLifecycle change jobDefID startable) }
  | .wait secs => some { s with clock := s.clock + secs }

def system : TransitionSystem (Cluster ι) (Action ι) where
  init s := s = initial
  step := step interval

/-- The manager takes itself for the leader, or runs triggers. -/
def leads (s : Cluster ι) (i : ι) : Bool :=
  (s.managers i).isLeader || !(s.managers i).active.isEmpty

end Cluster

end Formicary.Trigger

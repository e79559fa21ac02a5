import Formicary.Library.FinMap
import Formicary.Library.Transition
import Formicary.Model.Database
import Formicary.Model.JobDefinition

/-! # The resource manager

Which ants are registered, for which methods and tags, and which tasks of which requests they have
been allocated to. -/

namespace Formicary.Resource

open RequestState

/-! ## Ants -/

/-- The tasks of one request that an ant is allocated to. -/
structure AntAllocation where
  jobRequestID : String
  taskTypes : FinMap String RequestState
  antID : String
  antTopic : String
  allocatedAt : Time
  updatedAt : Time

def newAntAllocation (antID antTopic requestID taskType : String) (now : Time) : AntAllocation where
  jobRequestID := requestID
  taskTypes := AList.singleton taskType executing
  antID := antID
  antTopic := antTopic
  allocatedAt := now
  updatedAt := now

/-- The registration an ant sends. `validRegistration` is an optional callback, evaluated at the
time of the check. -/
structure AntRegistration where
  antID : String
  antTopic : String
  encryptionKey : String
  tags : List String
  methods : List TaskMethod
  totalExecuted : ℤ
  allocations : List AntAllocation
  receivedAt : Time
  validRegistration : Option (Time → Bool)
  maxCapacity : ℤ := 0

/-- `MatchTagsArray`, which succeeds without an error. -/
def matchTagsArray (tags otherTags : List String) : Bool :=
  if tags ≠ [] ∧ otherTags ≠ [] then
    otherTags.all fun otherTag =>
      Text.trimSpace otherTag == "" || tags.any fun tag => Text.equalFold tag otherTag
  else !(tags.isEmpty && !otherTags.isEmpty)

namespace AntRegistration

def expired (r : AntRegistration) (timeout now : Time) : Bool :=
  decide (now - r.receivedAt > timeout)

def valid (r : AntRegistration) (now : Time) : Bool :=
  r.validRegistration.all fun check => check now

def isAlive (r : AntRegistration) (timeout now : Time) : Bool :=
  !r.expired timeout now && r.valid now

def supports (r : AntRegistration) (method : TaskMethod) (tags : List String)
    (timeout now : Time) : Bool :=
  !r.expired timeout now && r.valid now && r.methods.contains method && matchTagsArray r.tags tags

end AntRegistration

structure AntReservation where
  jobRequestID : String
  taskType : String
  antID : String
  antTopic : String
  encryptionKey : String
  allocatedAt : Time
  currentLoad : ℤ
  totalExecuted : ℤ
  totalReservations : ℕ
  deriving DecidableEq, Repr

def newAntReservation (antID antTopic requestID taskType encryptionKey : String)
    (currentLoad totalExecuted : ℤ) (now : Time) : AntReservation where
  jobRequestID := requestID
  taskType := taskType
  antID := antID
  antTopic := antTopic
  encryptionKey := encryptionKey
  allocatedAt := now
  currentLoad := currentLoad
  totalExecuted := totalExecuted
  totalReservations := 0

/-- A `ContainerLifecycleEvent`, by what the index of containers reads. -/
structure ContainerLifecycleEvent where
  key : String
  requestID : String
  done : Bool
  deriving DecidableEq, Repr

/-! ## The state -/

structure State where
  antRegistrations : FinMap String AntRegistration
  antByTag : FinMap String (FinSet String)
  antByMethod : FinMap TaskMethod (FinSet String)
  antsByRequest : FinMap String (FinSet String)
  allocationsByAnt : FinMap String (FinMap String AntAllocation)
  containersEvents : FinMap String ContainerLifecycleEvent
  containersEventKeysByRequestID : FinMap String (FinSet String)

def newState : State := ⟨∅, ∅, ∅, ∅, ∅, ∅, ∅⟩

namespace State

variable (s : State)

/-! ## Reserving -/

def calculateLoad (allocations : FinMap String AntAllocation) : ℕ :=
  (allocations.values.map fun alloc => alloc.taskTypes.size).sum

/-- The ants registered for some tag, or the first tag that no ant is registered for. -/
def tagAnts : List String → Except String (FinSet String)
  | [] => .ok ∅
  | tag :: tags =>
    if Text.trimSpace tag = "" then tagAnts tags
    else
      match s.antByTag.lookup tag with
      | none => .error tag
      | some antIDs =>
        if antIDs.size = 0 then .error tag
        else
          (tagAnts tags).map fun ants =>
            antIDs.keys.foldl (fun ants antID => ants.insert antID ()) ants

def tagList (tags : List String) : String :=
  "[" ++ " ".intercalate tags ++ "]"

/-- The number of matches of an ant: one for its method and one for the tags. -/
def available (tags : List String) (ants : FinSet String) (antID : String) : ℕ :=
  if tags.length = 0 then 2 else 1 + if antID ∈ ants then 1 else 0

/-- How the message lists the available ants, in the order of their ids. -/
def availableList (methodAnts : FinSet String) (tags : List String) (ants : FinSet String) :
    String :=
  let sorted := methodAnts.keys.insertionSort (· ≤ ·)
  "map[" ++ " ".intercalate
    (sorted.map fun id => id ++ ":" ++ toString (available tags ants id)) ++ "]"

def candidates (requestID taskType : String) (method : TaskMethod) (tags : List String)
    (methodAnts ants : FinSet String) (timeout now : Time) : List AntReservation :=
  methodAnts.keys.filterMap fun antID =>
    if available tags ants antID ≠ 2 then none
    else
      match s.antRegistrations.lookup antID with
      | none => none
      | some registration =>
        match s.allocationsByAnt.lookup registration.antID with
        | none => none
        | some allocations =>
          if registration.supports method tags timeout now then
            some (newAntReservation registration.antID registration.antTopic requestID taskType
              registration.encryptionKey (calculateLoad allocations) registration.totalExecuted
              now)
          else none

/-- `addAllocationsByAnt`, with the load it sets in the reservation. -/
def addAllocationsByAnt (requestID taskType : String) (reservation : AntReservation) (now : Time) :
    State × AntReservation :=
  let allocations := (s.allocationsByAnt.lookup reservation.antID).getD ∅
  let allocation := (allocations.lookup requestID).getD
    (newAntAllocation reservation.antID reservation.antTopic requestID taskType now)
  let allocation := { allocation with taskTypes := allocation.taskTypes.insert taskType reserved }
  let allocations := allocations.insert requestID allocation
  ({ s with allocationsByAnt := s.allocationsByAnt.insert reservation.antID allocations },
    { reservation with currentLoad := FinMap.size allocations })

def addAntsByRequest (requestID antID : String) : State :=
  let ants := (s.antsByRequest.lookup requestID).getD ∅
  { s with antsByRequest := s.antsByRequest.insert requestID (ants.insert antID ()) }

structure ReserveCall where
  requestID : String
  taskType : String
  method : TaskMethod
  tags : List String
  dryRun : Bool

/-- `reserve`. Among the ants that qualify any may come first, and with the least load unless the
run is dry; `choice` says which one does. -/
def reserve (call : ReserveCall) (timeout now : Time) (choice : ℕ) :
    Option (State × Except String AntReservation) :=
  let methodAnts := (s.antByMethod.lookup call.method).getD ∅
  if methodAnts.size = 0 then
    some (s, .error ("no ants available for method '" ++ call.method.name ++
      "', ants-by-methods=" ++ toString s.antByMethod.size ++ ", total-registered-ants=" ++
      toString s.antRegistrations.size))
  else
    match s.tagAnts call.tags with
    | .error tag =>
      some (s, .error ("no ants available for tag '" ++ tag ++ "', tags=" ++ tagList call.tags ++
        ", ants-by-tags=" ++ toString s.antByTag.size ++ ", total-registered-ants=" ++
        toString s.antRegistrations.size))
    | .ok ants =>
      let reservations := s.candidates call.requestID call.taskType call.method call.tags
        methodAnts ants timeout now
      if reservations = [] then
        some (s, .error ("no ants could be reserved for method=" ++ call.method.name ++
          ", tags=" ++ tagList call.tags ++ " available=" ++
          availableList methodAnts call.tags ants ++ " ants-by-methods=" ++
          toString s.antByMethod.size ++ " ants-by-tags=" ++ toString s.antByTag.size))
      else
        match reservations[choice]? with
        | none => none
        | some reservation =>
          let reservation := { reservation with totalReservations := reservations.length }
          if call.dryRun then some (s, .ok reservation)
          else if reservations.all fun r => reservation.currentLoad ≤ r.currentLoad then
            let (s, reservation) :=
              s.addAllocationsByAnt call.requestID call.taskType reservation now
            some (s.addAntsByRequest call.requestID reservation.antID, .ok reservation)
          else none

/-! ## Releasing -/

def releaseJob (requestID : String) : State :=
  match s.antsByRequest.lookup requestID with
  | none => s
  | some ants =>
    { s with
      allocationsByAnt := s.allocationsByAnt.mapValues fun antID allocations =>
        if antID ∈ ants then allocations.erase requestID else allocations
      antsByRequest := s.antsByRequest.erase requestID
      containersEvents :=
        match s.containersEventKeysByRequestID.lookup requestID with
        | none => s.containersEvents
        | some keys => keys.keys.foldl (fun events k => events.erase k) s.containersEvents
      containersEventKeysByRequestID := s.containersEventKeysByRequestID.erase requestID }

/-- `release`. The last task of an allocation takes the index of its request along. -/
def release (reservation : AntReservation) : State :=
  match s.allocationsByAnt.lookup reservation.antID with
  | none => s
  | some allocations =>
    match allocations.lookup reservation.jobRequestID with
    | none => s
    | some allocation =>
      let taskTypes := allocation.taskTypes.erase reservation.taskType
      if FinMap.size taskTypes = 0 then
        { s with
          allocationsByAnt := s.allocationsByAnt.insert reservation.antID
            (allocations.erase reservation.jobRequestID)
          antsByRequest := s.antsByRequest.erase reservation.jobRequestID }
      else
        { s with
          allocationsByAnt := s.allocationsByAnt.insert reservation.antID
            (allocations.insert reservation.jobRequestID
              { allocation with taskTypes := taskTypes }) }

/-! ## Registering -/

/-- One allocation an ant reports, merged into those known. -/
def mergeAllocation (allocations : FinMap String AntAllocation) (alloc : AntAllocation) :
    FinMap String AntAllocation :=
  match allocations.lookup alloc.jobRequestID with
  | none => allocations.insert alloc.jobRequestID alloc
  | some old =>
    allocations.insert alloc.jobRequestID
      { old with
        taskTypes := alloc.taskTypes.entries.foldl (fun types e => types.insert e.1 e.2)
          old.taskTypes
        updatedAt := alloc.updatedAt }

/-- Adds an ant to the sets under some keys. -/
def updateAnts {κ : Type} [DecidableEq κ] (ants : FinMap κ (FinSet String)) (keys : List κ)
    (antID : String) : FinMap κ (FinSet String) :=
  keys.foldl (fun ants k => ants.insert k (((ants.lookup k).getD ∅).insert antID ())) ants

/-- `addRegistration`. The containers of a new ant are fetched in the background. -/
def addRegistration (registration : AntRegistration) : State :=
  let old := (s.allocationsByAnt.lookup registration.antID).getD ∅
  { s with
    antRegistrations := s.antRegistrations.insert registration.antID registration
    allocationsByAnt := s.allocationsByAnt.insert registration.antID
      (registration.allocations.foldl mergeAllocation old)
    antByMethod := updateAnts s.antByMethod registration.methods registration.antID
    antByTag := updateAnts s.antByTag registration.tags registration.antID }

def removeRegistration (antID : String) : State :=
  { s with
    antRegistrations := s.antRegistrations.erase antID
    allocationsByAnt := s.allocationsByAnt.erase antID
    antByTag := s.antByTag.mapValues fun _ ants => ants.erase antID
    antByMethod := s.antByMethod.mapValues fun _ ants => ants.erase antID
    antsByRequest := s.antsByRequest.mapValues fun _ ants => ants.erase antID }

def updateContainer (cnt : ContainerLifecycleEvent) : State :=
  let keys := (s.containersEventKeysByRequestID.lookup cnt.requestID).getD ∅
  if cnt.done then
    { s with
      containersEvents := s.containersEvents.erase cnt.key
      containersEventKeysByRequestID :=
        s.containersEventKeysByRequestID.insert cnt.requestID (keys.erase cnt.key) }
  else
    { s with
      containersEvents := s.containersEvents.insert cnt.key cnt
      containersEventKeysByRequestID :=
        s.containersEventKeysByRequestID.insert cnt.requestID (keys.insert cnt.key ()) }

/-! ## Reaping -/

/-- `reapStaleAllocations`: the reservations of the tasks allocated too long ago. -/
def reapStaleAllocations (timeout now : Time) : List AntReservation :=
  s.allocationsByAnt.values.flatMap fun allocations =>
    allocations.entries.flatMap fun e =>
      if now - e.2.allocatedAt > timeout then
        e.2.taskTypes.keys.map fun taskType =>
          newAntReservation e.2.antID e.2.antTopic e.1 taskType "" 0 0 now
      else []

/-- The ants `reapStaleAnts` removes; one may be listed twice. -/
def staleAnts (timeout now : Time) : List String :=
  s.antRegistrations.values.flatMap fun registration =>
    (if registration.expired timeout now then [registration.antID] else []) ++
      if registration.valid now then [] else [registration.antID]

end State

/-! ## The manager -/

structure Config where
  antRegistrationAliveTimeout : Time
  antReservationTimeout : Time

/-- The state, and what the reaper has listed and not yet removed. -/
structure Manager where
  state : State
  staleAnts : List String
  staleReservations : List AntReservation

/-- `Release`, and why it may fail. -/
def release (s : State) (reservation : AntReservation) : State × Except String Unit :=
  match s.antRegistrations.lookup reservation.antID with
  | none =>
    (s, .error ("failed to deallocate, ant-id=" ++ reservation.antID ++ " request=" ++
      reservation.jobRequestID ++ " task=" ++ reservation.taskType ++ " is no longer registered"))
  | some _ => (s.release reservation, .ok ())

def doReserve (s : State) (call : State.ReserveCall) (timeout now : Time) (choice : ℕ) :
    Option (State × Except String AntReservation) :=
  if call.method.name = "" then some (s, .error "method not specified")
  else s.reserve call timeout now choice

/-- `doReserveJobResources`: an ant for every task, or none at all. `choices` says for each task
which of the ants that qualify comes first. -/
def doReserveJobResources (requestID : String) (dryRun : Bool) (timeout now : Time) :
    State → FinMap String AntReservation → List TaskDefinition → List ℕ →
      Option (State × Except String (FinMap String AntReservation))
  | s, reservations, [], _ => some (s, .ok reservations)
  | _, _, _ :: _, [] => none
  | s, reservations, task :: tasks, choice :: choices =>
    match doReserve s ⟨requestID, task.taskType, task.method, task.tags, dryRun⟩ timeout now
        choice with
    | none => none
    | some (s, .ok alloc) =>
      doReserveJobResources requestID dryRun timeout now s
        (reservations.insert task.taskType alloc) tasks choices
    | some (s, .error err) =>
      some (if dryRun then s else s.releaseJob requestID, .error err)

/-- `validateAntAllocation`: the ant a task was reserved on may be gone, or may not support the task
any more. Then another one is reserved. -/
def validateAntAllocation (s : State) (requestID : String) (td : TaskDefinition)
    (allocation : AntReservation) (timeout now : Time) (choice : ℕ) :
    Option (State × Except String AntReservation) :=
  let call : State.ReserveCall := ⟨requestID, td.taskType, td.method, td.tags, false⟩
  match s.antRegistrations.lookup allocation.antID with
  | none => doReserve s call timeout now choice
  | some ant =>
    if ant.supports td.method td.tags timeout now then some (s, .ok allocation)
    else doReserve (release s allocation).1 call timeout now choice

inductive Action where
  | register (registration : AntRegistration) (now : Time)
  | unregister (antID : String)
  | reserve (call : State.ReserveCall) (now : Time) (choice : ℕ)
  | release (reservation : AntReservation)
  | releaseJob (requestID : String)
  | updateContainer (cnt : ContainerLifecycleEvent)
  /-- the reaper lists the ants that are no longer alive -/
  | listStaleAnts (now : Time)
  | removeStaleAnt
  /-- the reaper lists the allocations that are too old -/
  | listStaleAllocations (now : Time)
  | releaseStaleAllocation

namespace Manager

/-- One operation under the lock of the state. The reaper gives up the lock between listing and
removing, and between removals. -/
def step (cfg : Config) (m : Manager) : Action → Option Manager
  | .register registration now =>
    some { m with state := m.state.addRegistration { registration with receivedAt := now } }
  | .unregister antID => some { m with state := m.state.removeRegistration antID }
  | .reserve call now choice =>
    (doReserve m.state call cfg.antRegistrationAliveTimeout now choice).map fun result =>
      { m with state := result.1 }
  | .release reservation => some { m with state := (release m.state reservation).1 }
  | .releaseJob requestID => some { m with state := m.state.releaseJob requestID }
  | .updateContainer cnt => some { m with state := m.state.updateContainer cnt }
  | .listStaleAnts now =>
    if m.staleAnts = [] then
      some { m with staleAnts := m.state.staleAnts cfg.antRegistrationAliveTimeout now }
    else none
  | .removeStaleAnt =>
    match m.staleAnts with
    | [] => none
    | antID :: rest =>
      some { m with state := m.state.removeRegistration antID, staleAnts := rest }
  | .listStaleAllocations now =>
    if m.staleReservations = [] then
      some { m with
        staleReservations := m.state.reapStaleAllocations cfg.antReservationTimeout now }
    else none
  | .releaseStaleAllocation =>
    match m.staleReservations with
    | [] => none
    | reservation :: rest =>
      some { m with state := (release m.state reservation).1, staleReservations := rest }

def new : Manager := ⟨newState, [], []⟩

def system (cfg : Config) : TransitionSystem Manager Action where
  init m := m = new
  step := step cfg

end Manager

end Formicary.Resource

import Formicary.Model.JobLauncher
import Formicary.Model.JobSupervisor
import Formicary.Model.Lifecycle
import Formicary.Model.ResourceManager

/-! # The queen

The scheduler, the launcher with the supervisors it has started, and the resource manager, over one
database. -/

namespace Formicary

open RequestState

/-! ## Events -/

structure JobExecutionLifecycleEvent where
  jobRequestID : String
  jobExecutionID : String
  jobState : RequestState
  deriving DecidableEq, Repr

structure TaskExecutionLifecycleEvent where
  jobRequestID : String
  taskType : String
  taskState : RequestState
  antID : String
  deriving DecidableEq, Repr

structure JobExecutionLaunchEvent where
  jobRequestID : String
  jobExecutionID : String
  reservations : FinMap String Resource.AntReservation

/-- The events that the operations of a state machine have published. -/
def JobStateMachine.published (m : JobStateMachine) : List JobExecutionLifecycleEvent :=
  m.effects.filterMap fun
    | .published state => some ⟨m.request.id, m.execution.id, state⟩
    | _ => none

/-! ## Supervisors -/

/-- A supervisor that has been started. Of its state machine the copy of the database and the log of
effects are renewed with each step. -/
structure Supervised where
  workflow : Workflow
  reservations : FinMap String Resource.AntReservation
  /-- the reservation of the task in flight, if another ant had to be found for it -/
  reservation : Option Resource.AntReservation
  supervisor : JobSupervisor
  /-- the context of the loop has been cancelled -/
  cancelled : Bool

namespace Supervised

variable (sup : Supervised)

def attach (db : Database) : JobSupervisor :=
  { sup.supervisor with machine := { sup.supervisor.machine with db := db, effects := [] } }

def requestID : String := sup.supervisor.machine.request.id

def executionID : String := sup.supervisor.machine.execution.id

def subscribed : Bool :=
  match sup.supervisor.location with
  | .start | .returned _ => false
  | _ => true

def taskType : Option String :=
  match sup.supervisor.location with
  | .running taskType | .cleaning taskType _ _ => some taskType
  | _ => none

def antID (taskType : String) (td : TaskDefinition) : String :=
  if td.method = .manual then TaskMethod.manual.name
  else ((sup.reservation <|> sup.reservations.lookup taskType).map
    Resource.AntReservation.antID).getD ""

/-- The event that `FinalizeTaskState` publishes. A task that was already completed is not run
again. -/
def taskEvents (outcome : TaskOutcome) (now : Time) : List TaskExecutionLifecycleEvent :=
  let m := sup.supervisor.machine
  match sup.taskType with
  | none => []
  | some taskType =>
    if (m.getTask taskType).any fun t => t.taskState == completed then []
    else
      match (m.submitTask sup.workflow taskType outcome now).task with
      | none => []
      | some (td, te) => [⟨sup.requestID, td.taskType, te.taskState, sup.antID taskType td⟩]

end Supervised

/-- Whether the way out of `tryExecuteJob` frees the ants of the job:
`RestartJobBackToPendingPaused` does, and `PauseJob` unless it is refused. -/
def JobSupervisor.releasesOnProceed (s : JobSupervisor) : Bool :=
  match s.location with
  | .conclude _ =>
    s.errorCode == ErrorCodes.restartJob ||
      s.errorCode == ErrorCodes.pauseJob && s.machine.execution.jobState == executing
  | _ => false

/-! ## The state -/

structure Queen where
  lifecycle : Lifecycle.State
  /-- what the scheduler has reserved for the request it is working on -/
  reserved : Option (FinMap String Resource.AntReservation)
  resources : Resource.Manager
  launches : List JobExecutionLaunchEvent
  /-- the supervisors in the order in which they were started -/
  running : List Supervised
  /-- the launcher's table, by request -/
  supervisors : FinMap String ℕ
  toResources : List JobExecutionLifecycleEvent
  toLauncher : List JobExecutionLifecycleEvent
  /-- the event bus, with the supervisor an event goes to -/
  toSupervisors : List (ℕ × JobExecutionLifecycleEvent)
  taskEvents : List TaskExecutionLifecycleEvent

namespace Queen

def initial : Queen :=
  ⟨Lifecycle.State.initial, none, Resource.Manager.new, [], [], ∅, [], [], [], []⟩

variable (q : Queen)

def db : Database := q.lifecycle.db

def setDb (db : Database) : Queen :=
  { q with lifecycle := { q.lifecycle with db := db } }

def setResources (state : Resource.State) : Queen :=
  { q with resources := { q.resources with state := state } }

/-- `ReleaseJobResources`. -/
def releaseJob (requestID : String) : Queen :=
  q.setResources (q.resources.state.releaseJob requestID)

/-- Publishes events, to everyone who subscribes to them. -/
def send (events : List JobExecutionLifecycleEvent) : Queen :=
  { q with toResources := events ++ q.toResources, toLauncher := events ++ q.toLauncher }

/-- What an operation of a state machine leaves in the database and in the queues. -/
def absorb (m : JobStateMachine) : Queen :=
  (q.setDb m.db).send m.published

/-- A supervisor has taken a step. -/
def put (i : ℕ) (sup : Supervised) (s : JobSupervisor) : Queen :=
  { q.absorb s.machine with running := q.running.set i { sup with supervisor := s } }

/-! ## The scheduler and the callers -/

/-- The statements that only supervisors and launchers issue. -/
def issuedBySupervisor : Lifecycle.Action → Bool
  | .setExecuting .. | .requireApproval .. | .finalize .. | .updateRequest .. => true
  | _ => false

/-- The scheduler creates an execution once it has reserved an ant for every task, and only then. -/
def mayTake : Lifecycle.Action → Bool
  | .lookup _ => q.reserved.isSome
  | .drop | .postpone .. | .scheduleFailed => q.reserved.isNone
  | action => !issuedBySupervisor action

/-- A statement of the scheduler or of a caller. A launch event that could not be sent puts the
request back, and its ants are freed first. -/
def act (action : Lifecycle.Action) : Option Queen :=
  if q.mayTake action then
    (Lifecycle.step q.lifecycle action).map fun lifecycle =>
      let q' : Queen :=
        { q with
          lifecycle := lifecycle
          reserved := if lifecycle.current.isNone then none else q.reserved }
      match q.lifecycle.current, action with
      | some ⟨req, .marked e⟩, .sendLaunchEvent true =>
        { q' with launches := ⟨req.id, e.id, q.reserved.getD ∅⟩ :: q.launches }
      | some ⟨req, .reverting _⟩, .revertRequest _ => q'.releaseJob req.id
      | _, _ => q'
  else none

section Definitions

-- the definitions by their ids, and the timeouts of the resource manager
variable (definitions : String → Workflow) (cfg : Resource.Config)

def tasksOf (req : JobRequest) : List TaskDefinition :=
  (definitions req.jobDefinitionID).stored.tasks

/-- `ReserveJobResources` of the scheduler. -/
def reserve (now : Time) (choices : List ℕ) : Option Queen :=
  match q.lifecycle.current, q.reserved with
  | some ⟨req, .selected⟩, none =>
    (Resource.doReserveJobResources req.id false cfg.antRegistrationAliveTimeout now
      q.resources.state ∅ (tasksOf definitions req) choices).map fun result =>
        { q.setResources result.1 with reserved := result.2.toOption }
  | _, _ => none

/-! ## The launcher -/

def machine (db : Database) (request : JobRequest)
    (execution : JobExecutionRepository.LoadedExecution) : JobStateMachine where
  db := db
  request := request
  execution := execution.execution
  tasks := execution.tasks
  errorCode := none
  effects := []

/-- `LaunchFailed`. Without an execution there is no event. -/
def launchFailed (request : JobRequest)
    (execution : Option JobExecutionRepository.LoadedExecution) (err : String) (c : Clock) :
    Queen :=
  match execution with
  | some execution => q.absorb ((machine q.db request execution).launchFailed err c).1
  | none =>
    q.setDb (Lifecycle.commit q.db (JobRequestRepository.updateJobState q.db request.id
      (some ready) failed err ErrorCodes.jobExecute c.delay 0 request.pausedCount c.userKey
      c.now))

/-- `RevertRequestToPendingPaused` of a launcher, which has not loaded the execution yet. -/
def revertLaunch (request : JobRequest) (err : String) (c : Clock) : Queen :=
  (q.setDb (Lifecycle.commit q.db (JobRequestRepository.updateJobState q.db request.id (some ready)
    (Lifecycle.revertState request) err "" c.delay 0 request.pausedCount c.userKey
    c.now))).releaseJob request.id

/-- `addSupervisor`, of a supervisor that is about to run. -/
def addSupervisor (launch : JobLauncher.JobLaunch)
    (reservations : FinMap String Resource.AntReservation) : Queen :=
  { q with
    running := q.running ++
      [{ workflow := definitions launch.request.jobDefinitionID
         reservations := reservations
         reservation := none
         supervisor := ⟨machine q.db launch.request launch.execution, "", none, "", .start⟩
         cancelled := false }]
    supervisors := q.supervisors.insert launch.request.id q.running.length }

/-- `launchJob`. -/
def launch (event : JobExecutionLaunchEvent) (validateError : Option String) (c : Clock) : Queen :=
  match JobRequestRepository.get q.db (QueryContext.newQueryContext none) event.jobRequestID with
  | .error _ => q
  | .ok request =>
    let tasks := (tasksOf definitions request).map TaskDefinition.taskType
    let reservations := event.reservations.keys
    match JobLauncher.launchJob q.db event.jobRequestID event.jobExecutionID validateError tasks
        reservations c.now with
    | (.error (.unread _), db) => q.setDb db
    | (.error (.requeue err), db) => (q.setDb db).revertLaunch request err c
    | (.error (.failed err), db) =>
      (q.setDb db).launchFailed request
        (JobLauncher.loadedExecution q.db event.jobExecutionID validateError tasks reservations
          c.now) err c
    | (.ok launch, db) => (q.setDb db).addSupervisor definitions launch event.reservations

/-! ## Supervisors -/

/-- A step of the loop other than the completion of a task. -/
def proceed (i : ℕ) (c : Clock) : Option Queen :=
  q.running[i]?.bind fun sup =>
    ((sup.attach q.db).proceed sup.workflow c).map fun s =>
      (if (sup.attach q.db).releasesOnProceed then q.releaseJob sup.requestID else q).put i sup s

def taskDone (i : ℕ) (outcome : TaskOutcome) (c : Clock) : Option Queen :=
  q.running[i]?.bind fun sup =>
    ((sup.attach q.db).step sup.workflow (.taskDone outcome c)).map fun s =>
      { q.put i { sup with reservation := none } s with
        taskEvents := sup.taskEvents outcome c.now ++ q.taskEvents }

/-- The task in flight looks whether its ant is still there. -/
def validateAntAllocation (i : ℕ) (now : Time) (choice : ℕ) : Option Queen :=
  q.running[i]?.bind fun sup =>
    sup.taskType.bind fun taskType =>
      match sup.workflow.getDynamicTask taskType, sup.reservations.lookup taskType with
      | .ok td, some allocation =>
        (Resource.validateAntAllocation q.resources.state sup.requestID td allocation
          cfg.antRegistrationAliveTimeout now choice).map fun result =>
            { q.setResources result.1 with
              running := q.running.set i { sup with reservation := result.2.toOption } }
      | _, _ => none

/-- `UpdateFromJobLifecycleEvent`: of the event the request and the state are looked at. `PauseJob`
frees the ants of the job unless it is refused. -/
def updateFromJobLifecycleEvent (i : ℕ) (event : JobExecutionLifecycleEvent) (c : Clock) : Queen :=
  match q.running[i]? with
  | none => q
  | some sup =>
    if event.jobRequestID = sup.requestID ∧
        (event.jobState.isTerminal = true ∨ event.jobState = paused) then
      let s := sup.attach q.db
      let releases := event.jobState == paused && s.machine.execution.jobState == executing
      (if releases then q.releaseJob sup.requestID else q).put i
        { sup with cancelled := sup.cancelled || s.location != .start }
        { s with machine := (s.machine.updateFromJobLifecycleEvent event.jobState c).1 }
    else q

/-- `removeSupervisor`: whichever supervisor the table has for the request. -/
def removeSupervisor (event : JobExecutionLifecycleEvent) (c : Clock) : Queen :=
  let q' : Queen := { q with supervisors := q.supervisors.erase event.jobRequestID }
  match q.supervisors.lookup event.jobRequestID with
  | some i =>
    if event.jobState = cancelled ∨ event.jobState = paused then
      q'.updateFromJobLifecycleEvent i event c
    else q'
  | none => q'

/-! ## Deliveries -/

def subscribers : List ℕ :=
  (List.range q.running.length).filter fun i => (q.running[i]?).any Supervised.subscribed

/-- The launcher passes an event on, and forgets the supervisor of a job that has ended. -/
def receiveByLauncher (event : JobExecutionLifecycleEvent) (c : Clock) : Queen :=
  let q' : Queen :=
    { q with toSupervisors := (q.subscribers.map fun i => (i, event)) ++ q.toSupervisors }
  if event.jobState.isTerminal then q'.removeSupervisor event c else q'

/-- The resource manager frees the ants of a job that has ended. -/
def receiveByResources (event : JobExecutionLifecycleEvent) : Queen :=
  if event.jobState.isTerminal then q.releaseJob event.jobRequestID else q

/-- The resource manager frees the ant of a task that is completed. -/
def receiveTaskEvent (event : TaskExecutionLifecycleEvent) (now : Time) : Queen :=
  if event.taskState = completed then
    q.setResources (Resource.release q.resources.state (Resource.newAntReservation event.antID ""
      event.jobRequestID event.taskType "" 0 0 now)).1
  else q

/-! ## Steps -/

inductive Action where
  /-- a statement of the scheduler or of a caller -/
  | act (action : Lifecycle.Action)
  | reserve (now : Time) (choices : List ℕ)
  /-- `cancelJob` and `pauseJob` of the job manager, for a request that was read before -/
  | cancelJob (req : JobRequest)
  | pauseJob (req : JobRequest)
  | launch (k : ℕ) (validateError : Option String) (c : Clock)
  | proceed (i : ℕ) (c : Clock)
  | taskDone (i : ℕ) (outcome : TaskOutcome) (c : Clock)
  | validateAntAllocation (i : ℕ) (now : Time) (choice : ℕ)
  -- the arrival of a lifecycle event
  | deliverToResources (k : ℕ)
  | deliverToLauncher (k : ℕ) (c : Clock)
  | deliverToSupervisor (k : ℕ) (c : Clock)
  | deliverTaskEvent (k : ℕ) (now : Time)
  /-- ants register and leave, and the reaper works -/
  | resources (action : Resource.Action)

/-- The operations of the resource manager that only the queen performs. -/
def issuedByQueen : Resource.Action → Bool
  | .reserve .. | .release _ | .releaseJob _ => true
  | _ => false

def step : Action → Option Queen
  | .act action => q.act action
  | .reserve now choices => q.reserve definitions cfg now choices
  | .cancelJob req =>
    if req ∈ q.lifecycle.copies ∧ req.jobState ∉ [pending, paused, manualApprovalRequired] then
      some (q.send [⟨req.id, req.jobExecutionID.getD "", cancelled⟩])
    else none
  | .pauseJob req =>
    if req ∈ q.lifecycle.copies ∧ req.jobState = executing then
      some (q.send [⟨req.id, req.jobExecutionID.getD "", paused⟩])
    else none
  | .launch k validateError c =>
    q.launches[k]?.map fun event =>
      { q with launches := q.launches.eraseIdx k }.launch definitions event validateError c
  | .proceed i c => q.proceed i c
  | .taskDone i outcome c => q.taskDone i outcome c
  | .validateAntAllocation i now choice => q.validateAntAllocation cfg i now choice
  | .deliverToResources k =>
    q.toResources[k]?.map fun event =>
      { q with toResources := q.toResources.eraseIdx k }.receiveByResources event
  | .deliverToLauncher k c =>
    q.toLauncher[k]?.map fun event =>
      { q with toLauncher := q.toLauncher.eraseIdx k }.receiveByLauncher event c
  | .deliverToSupervisor k c =>
    q.toSupervisors[k]?.map fun (i, event) =>
      { q with
        toSupervisors := q.toSupervisors.eraseIdx k }.updateFromJobLifecycleEvent i event c
  | .deliverTaskEvent k now =>
    q.taskEvents[k]?.map fun event =>
      { q with taskEvents := q.taskEvents.eraseIdx k }.receiveTaskEvent event now
  | .resources action =>
    if issuedByQueen action then none
    else (Resource.Manager.step cfg q.resources action).map fun resources =>
      { q with resources := resources }

def system : TransitionSystem Queen Action where
  init q := q = initial
  step q := q.step definitions cfg

end Definitions

end Queen

end Formicary

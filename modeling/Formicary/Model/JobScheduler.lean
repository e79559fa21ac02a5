import Formicary.Model.ResourceManager

/-! # Checking the resources of a job

A job is scheduled if there are ants for the methods and the tags of its tasks taken together, and
right after that an ant is reserved for every task. -/

namespace Formicary

/-! ## Methods and tags of a job -/

namespace TaskMethod

/-- The `TaskMethod` constants. -/
def constants : List TaskMethod :=
  [expireArtifacts, forkJob, awaitForkedJob, messaging, httpGet, httpPostForm, httpPostJSON,
    httpPutForm, httpPutJSON, httpDelete, webSocket, shell, docker, kubernetes, manual, fanOutJob]

def ofName (text : String) : TaskMethod :=
  (constants.find? fun method => method.name == text).getD (other text)

end TaskMethod

/-- Writes one after the other into a buffer, with a separator where the buffer is not empty. -/
def writeAll (sep : String) (texts : List String) : String :=
  texts.foldl (fun buf text => (if buf = "" then buf else buf ++ sep) ++ text) ""

def splitTags (tags : String) : List String :=
  (((Text.split (fun c => c == ',' || c == ' ' || c == '\t' || c == ';') tags).map
    Text.trimSpace).filter fun tag => tag ≠ "").insertionSort (· ≤ ·)

namespace JobDefinition

def buildMethods (jd : JobDefinition) : String :=
  writeAll ", " (((jd.tasks.map fun t => t.method.name).filter fun name => name ≠ "").dedup)

def buildTags (jd : JobDefinition) : String :=
  writeAll "," (jd.tasks.flatMap TaskDefinition.tags).dedup

/-- The methods `CheckAntResourcesAndConcurrencyForJob` asks for. -/
def checkedMethods (jd : JobDefinition) : List TaskMethod :=
  (Text.split (fun c => c == ',') jd.buildMethods).map fun m => .ofName (Text.trimSpace m)

end JobDefinition

namespace Resource

/-! ## The check -/

def twoDigits (n : ℕ) : String :=
  if n < 10 then "0" ++ toString n else toString n

def timeOfDay (t : Time) : String :=
  let secs := (t % 86400).toNat
  twoDigits (secs / 3600) ++ ":" ++ twoDigits (secs / 60 % 60) ++ ":" ++ twoDigits (secs % 60)

namespace State

variable (s : State) (timeout now : Time)

def liveCount (method : TaskMethod) : ℕ :=
  ((s.antByMethod.lookup method).getD ∅).keys.countP fun antID =>
    (s.antRegistrations.lookup antID).any fun reg => reg.supports method [] timeout now

/-- Looks for an ant with a tag that is alive and has capacity. The result is what is said about
those that are not, if there is none. -/
def matchTag (tag : String) : List String → Option (List String)
  | [] => some []
  | antID :: antIDs =>
    match s.antRegistrations.lookup antID, s.allocationsByAnt.lookup antID with
    | some registration, some allocations =>
      if !registration.isAlive timeout now then
        (matchTag tag antIDs).map fun errors =>
          ("AntID=" ++ antID ++ " stale (last seen " ++ timeOfDay registration.receivedAt ++
            ")") :: errors
      else if (FinMap.size allocations : ℤ) ≤ registration.maxCapacity then none
      else
        (matchTag tag antIDs).map fun errors =>
          ("AntID=" ++ antID ++ " Tag=" ++ tag ++ " Capacity (" ++
            toString registration.maxCapacity ++ ") > Allocations (" ++
            toString (FinMap.size allocations) ++ ")") :: errors
    | _, _ => matchTag tag antIDs

def checkTag (tag : String) : Except String Unit :=
  let antIDs := ((s.antByTag.lookup tag).getD ∅).keys
  if antIDs.length = 0 then
    .error ("no ant for tag='" ++ tag ++ "' ants-by-tags=" ++ toString antIDs.length)
  else
    match s.matchTag timeout now tag antIDs with
    | none => .ok ()
    | some errors =>
      .error ("no matching live ant for tag='" ++ tag ++ "' ants-by-tags=" ++
        toString antIDs.length ++ " errors=" ++ tagList errors)

def hasAntsForJobTags (methods : List TaskMethod) (tags : List String) : Except String Unit :=
  if methods.length = 0 then .error "methods not specified for ant-registration"
  else
    match methods.find? fun method => s.liveCount timeout now method = 0 with
    | some method => .error ("no live ant for method='" ++ method.name ++ "'")
    | none => tags.forM (s.checkTag timeout now)

end State

/-! ## Scheduling -/

/-- The check of a job and, if it succeeds, the reservation of its ants. -/
def schedule (s : State) (requestID : String) (jd : JobDefinition) (timeout now : Time)
    (choices : List ℕ) : Option State :=
  match s.hasAntsForJobTags timeout now jd.checkedMethods (splitTags jd.buildTags) with
  | .error _ => some s
  | .ok () =>
    (doReserveJobResources requestID false timeout now s ∅ jd.tasks choices).map Prod.fst

inductive SchedulerAction where
  | schedule (requestID : String) (jd : JobDefinition) (now : Time) (choices : List ℕ)
  | act (action : Action)

def schedulerSystem (cfg : Config) : TransitionSystem Manager SchedulerAction where
  init m := m = Manager.new
  step m
    | .schedule requestID jd now choices =>
      (Resource.schedule m.state requestID jd cfg.antRegistrationAliveTimeout now choices).map
        fun s => { m with state := s }
    | .act action => m.step cfg action

end Resource

end Formicary

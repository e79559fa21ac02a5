import Formicary.Library.FinMap
import Formicary.Model.Database

/-! # The job statistics registry

Counters per job type of a user or an organization, and the ids of the requests that run for each
user and each organization. The latencies and the copy kept in the cache are left out. -/

namespace Formicary

/-! ## Keys -/

def getUserJobTypeKey (organizationID userID jobType jobVersion : String) : String :=
  if organizationID = "" then userID ++ "-" ++ jobType ++ ":" ++ jobVersion
  else organizationID ++ "-" ++ jobType ++ ":" ++ jobVersion

/-- `IJobRequestSummary`, as far as the counters read it. -/
structure JobRequestSummary where
  id : String
  jobType : String
  jobVersion : String
  userID : String
  organizationID : String
  jobState : RequestState
  deriving DecidableEq, Repr

def JobRequestSummary.getUserJobTypeKey (req : JobRequestSummary) : String :=
  Formicary.getUserJobTypeKey req.organizationID req.userID req.jobType req.jobVersion

def JobRequest.summary (req : JobRequest) : JobRequestSummary :=
  ⟨req.id, req.jobType, req.jobVersion, req.userID, req.organizationID, req.jobState⟩

/-- The id of an execution is that of its request here. -/
def JobExecution.summary (e : JobExecution) : JobRequestSummary :=
  ⟨e.jobRequestID, e.jobType, e.jobVersion, e.userID, e.organizationID, e.jobState⟩

def JobRequest.getUserJobTypeKey (req : JobRequest) : String :=
  req.summary.getUserJobTypeKey

/-! ## Statistics of one job type -/

structure JobStats where
  firstJobAt : Option Time := none
  lastJobAt : Option Time := none
  succeededJobs : ℕ := 0
  pausedJobs : ℕ := 0
  failedJobs : ℕ := 0
  executingJobs : Int32 := 0
  antsAvailable : Bool := false
  antUnavailableError : String := ""

namespace JobStats

variable (j : JobStats)

def started (now : Time) : JobStats :=
  { j with
    antsAvailable := true
    antUnavailableError := ""
    executingJobs := j.executingJobs + 1
    lastJobAt := some now
    firstJobAt := some (j.firstJobAt.getD now) }

def cancelled : JobStats := { j with executingJobs := j.executingJobs - 1 }

def succeeded : JobStats :=
  { j with succeededJobs := j.succeededJobs + 1, executingJobs := j.executingJobs - 1 }

def failed : JobStats :=
  { j with failedJobs := j.failedJobs + 1, executingJobs := j.executingJobs - 1 }

def paused : JobStats :=
  { j with pausedJobs := j.pausedJobs + 1, executingJobs := j.executingJobs - 1 }

def revertedPending : JobStats := { j with executingJobs := j.executingJobs - 1 }

end JobStats

/-! ## The registry -/

structure JobStatsRegistry where
  statsByJobType : FinMap String JobStats
  countByUser : FinMap String (FinSet String)
  countByOrg : FinMap String (FinSet String)
  pendingJobsByType : FinMap String (FinMap String JobRequestSummary)
  lastJobStatus : FinMap String (String × RequestState)

namespace JobStatsRegistry

/-- `newRegistry`. -/
def new : JobStatsRegistry := ⟨∅, ∅, ∅, ∅, ∅⟩

variable (r : JobStatsRegistry) (req : JobRequestSummary)

def createOrFindStat : JobStats :=
  (r.statsByJobType.lookup req.getUserJobTypeKey).getD {}

def updateStat (f : JobStats → JobStats) : JobStatsRegistry :=
  { r with
    statsByJobType := r.statsByJobType.insert req.getUserJobTypeKey (f (r.createOrFindStat req)) }

def removePendingJob : JobStatsRegistry :=
  match r.pendingJobsByType.lookup req.getUserJobTypeKey with
  | none => r
  | some pendingJobs =>
    { r with
      pendingJobsByType :=
        r.pendingJobsByType.insert req.getUserJobTypeKey (pendingJobs.erase req.id) }

def addPendingJob : JobStatsRegistry :=
  let pendingJobs := (r.pendingJobsByType.lookup req.getUserJobTypeKey).getD ∅
  { r with
    pendingJobsByType :=
      r.pendingJobsByType.insert req.getUserJobTypeKey (pendingJobs.insert req.id req) }

def counted (counts : FinMap String (FinSet String)) (owner : String) : FinSet String :=
  (counts.lookup owner).getD ∅

def incrCount (counts : FinMap String (FinSet String)) (owner id : String) :
    FinMap String (FinSet String) :=
  if owner = "" then counts else counts.insert owner ((counted counts owner).insert id ())

def decrCount (counts : FinMap String (FinSet String)) (owner id : String) :
    FinMap String (FinSet String) :=
  if owner ≠ "" ∧ FinMap.size (counted counts owner) > 0 then
    counts.insert owner ((counted counts owner).erase id)
  else counts

def incrUserOrgCount : JobStatsRegistry :=
  { r with
    countByUser := incrCount r.countByUser req.userID req.id
    countByOrg := incrCount r.countByOrg req.organizationID req.id }

def decrUserOrgCount : JobStatsRegistry :=
  { r with
    countByUser := decrCount r.countByUser req.userID req.id
    countByOrg := decrCount r.countByOrg req.organizationID req.id }

def pending (reverted : Bool) : JobStatsRegistry :=
  let r := (r.addPendingJob req).decrUserOrgCount req
  if reverted then r.updateStat req JobStats.revertedPending else r

def started (now : Time) : JobStatsRegistry :=
  ((r.updateStat req (·.started now)).removePendingJob req).incrUserOrgCount req

/-- What the calls at the end of a run have in common. -/
def ended (f : JobStats → JobStats) : JobStatsRegistry :=
  ((r.updateStat req f).removePendingJob req).decrUserOrgCount req

def setLastJobStatus : JobStatsRegistry :=
  { r with
    lastJobStatus := r.lastJobStatus.insert req.getUserJobTypeKey (req.id, req.jobState) }

def cancelled : JobStatsRegistry := r.ended req JobStats.cancelled

def succeeded : JobStatsRegistry := (r.ended req JobStats.succeeded).setLastJobStatus req

def failed : JobStatsRegistry := (r.ended req JobStats.failed).setLastJobStatus req

def paused : JobStatsRegistry := (r.ended req JobStats.paused).setLastJobStatus req

def getExecutionCount (key : String) : Int32 :=
  match r.statsByJobType.lookup key with
  | none => 0
  | some stat => stat.executingJobs

end JobStatsRegistry

end Formicary

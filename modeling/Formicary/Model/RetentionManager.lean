import Formicary.Model.JobDefinitionRepository

/-! # The retention of job history

For every active definition and every terminal state, the requests that have not changed for longer
than the definition retains them are deleted with everything that refers to them. -/

namespace Formicary

/-- The tables that the purge deletes from. -/
structure History extends Database where
  /-- `formicary_job_resource_uses`, of a task execution -/
  resourceUses : List Reference
  taskContexts : List Reference
  /-- `formicary_log_events`, of a job execution -/
  logs : List Reference
  jobContexts : List Reference
  /-- `formicary_artifacts`, of a job request -/
  artifacts : List Reference
  params : List Reference

namespace History

variable (h : History)

def deleteTasks (taskIDs : List String) : History :=
  { h with
    votes := h.votes.deleteWhere fun vote => taskIDs.contains vote.taskExecutionID
    deadlines := h.deadlines.deleteWhere fun deadline => taskIDs.contains deadline.taskExecutionID
    resourceUses := h.resourceUses.filter fun use => !taskIDs.contains use.ownerID
    taskContexts := h.taskContexts.filter fun context => !taskIDs.contains context.ownerID
    tasks := h.tasks.deleteWhere fun task => taskIDs.contains task.id }

def deleteExecutions (execIDs : List String) : History :=
  { h with
    logs := h.logs.filter fun log => !execIDs.contains log.ownerID
    jobContexts := h.jobContexts.filter fun context => !execIDs.contains context.ownerID
    executions := h.executions.deleteWhere fun execution => execIDs.contains execution.id }

def deleteRequests (reqIDs : List String) : History :=
  { h with
    artifacts := h.artifacts.filter fun artifact => !reqIDs.contains artifact.ownerID
    params := h.params.filter fun param => !reqIDs.contains param.ownerID
    requests := h.requests.deleteWhere fun req => reqIDs.contains req.id }

/-- What the purge of a job type and a state selects, whoever owns the request. -/
def selects (jobType : String) (state : RequestState) (olderThan : Time) (req : JobRequest) :
    Bool :=
  req.jobType == jobType && req.jobState == state && decide (req.updatedAt < olderThan)

def purgeOldRequests (jobType : String) (state : RequestState) (olderThan : Time) (limit : ℤ) :
    Except Error (ℕ × History) :=
  if !state.isTerminal then
    .error ⟨.plain,
      "PurgeOldRequests: state " ++ state.name ++ " is not terminal, refusing to purge"⟩
  else
    let limit := if limit ≤ 0 then 500 else limit.toNat
    let reqIDs :=
      ((h.requests.rows.filter (selects jobType state olderThan)).take limit).map JobRequest.id
    if reqIDs = [] then .ok (0, h)
    else
      let execIDs := (h.executions.rows.filter fun execution =>
        reqIDs.contains execution.jobRequestID).map JobExecution.id
      let taskIDs := if execIDs = [] then [] else
        (h.tasks.rows.filter fun task => execIDs.contains task.jobExecutionID).map TaskExecution.id
      let purged := if taskIDs = [] then h else h.deleteTasks taskIDs
      let purged := if execIDs = [] then purged else purged.deleteExecutions execIDs
      .ok (purged.requests.affected fun req => reqIDs.contains req.id, purged.deleteRequests reqIDs)

end History

/-! ## Definitions -/

namespace JobDefinitionRow

variable (job : JobDefinitionRow)

def defaultRetentionDaysForFailed : ℤ := 30

def defaultRetentionDaysForCompleted : ℤ := 7

def defaultRetentionDaysForCancelled : ℤ := 30

def getRetentionDays (state : RequestState) : ℤ :=
  let orDefault := fun days default : ℤ => if 0 < days then days else default
  match state with
  | .failed => orDefault job.retentionDaysForFailed defaultRetentionDaysForFailed
  | .completed => orDefault job.retentionDaysForCompleted defaultRetentionDaysForCompleted
  | .cancelled => orDefault job.retentionDaysForCancelled defaultRetentionDaysForCancelled
  | _ => 0

end JobDefinitionRow

/-- `Query` for active definitions, in the order it falls back to. The page is counted from the page
number. -/
def JobDefinitionRepository.query (repo : JobDefinitionRepository) (qc : QueryContext)
    (page pageSize : ℕ) : Except Error (List JobDefinitionRow) :=
  let rows := (repo.rows.filter fun row =>
    qc.orgElseUserWhere true row.userID row.organizationID && row.active).insertionSort
    fun a b => a.jobType ≤ b.jobType
  ((rows.drop (page * pageSize)).take pageSize).mapM JobDefinitionRow.postProcessJob

/-! ## The run -/

namespace RetentionManager

/-- What a run meets: the clock when a definition and a state have their turn, and the errors of the
queries and of the batches. -/
structure Surroundings where
  now : String → RequestState → Time
  queryError : ℕ → Option Error
  cancelled : String → RequestState → ℕ → Option Error
  purgeError : String → RequestState → ℕ → Option Error

def pageSize : ℕ := 1000

def batchSize : ℕ := 500

def terminalStates : List RequestState := [.failed, .completed, .cancelled]

/-- `AddDate` with a number of days, in UTC. -/
def addDays (t : Time) (days : ℤ) : Time := t + days * 86400

variable (env : Surroundings)

/-- One batch after another, with the requests deleted so far. -/
def drain (jd : JobDefinitionRow) (state : RequestState) (olderThan : Time) :
    ℕ → ℕ → ℕ → History → History × Except Error ℕ
  | 0, _, total, h => (h, .ok total)
  | fuel + 1, batch, total, h =>
    match env.cancelled jd.id state batch with
    | some err => (h, .error err)
    | none =>
      match env.purgeError jd.id state batch with
      | some err => (h, .error err)
      | none =>
        match h.purgeOldRequests jd.jobType state olderThan batchSize with
        | .error err => (h, .error err)
        | .ok (n, h) =>
          if n < batchSize then (h, .ok (total + n))
          else drain jd state olderThan fuel (batch + 1) (total + n) h

/-- `purgeState`. A batch that is not the last one leaves fewer requests. -/
def purgeState (jd : JobDefinitionRow) (state : RequestState) (olderThan : Time) (h : History) :
    History × Except Error ℕ :=
  drain env jd state olderThan (h.requests.rows.length + 1) 0 0 h

/-- A run so far, with the definitions it has come to. -/
structure Purging where
  history : History
  totalPurged : ℕ
  processed : List JobDefinitionRow

/-- A definition and a state. An error is logged. -/
def purgeOne (jd : JobDefinitionRow) (s : Purging) (state : RequestState) : Purging :=
  let days := jd.getRetentionDays state
  if days ≤ 0 then s
  else
    let olderThan := addDays (env.now jd.id state) (-days)
    match purgeState env jd state olderThan s.history with
    | (h, .error _) => { s with history := h }
    | (h, .ok purged) => { s with history := h, totalPurged := s.totalPurged + purged }

def purgeDefinition (s : Purging) (jd : JobDefinitionRow) : Purging :=
  terminalStates.foldl (purgeOne env jd) { s with processed := s.processed ++ [jd] }

/-- The loop over the pages. The offset of the next page is passed for its number. -/
def purgePages (repo : JobDefinitionRepository) : ℕ → ℕ → Purging → Purging × Except Error ℕ
  | 0, _, s => (s, .ok s.totalPurged)
  | fuel + 1, offset, s =>
    let failure := fun err : Error =>
      (s, .error ⟨.plain, "retention: failed to load job definitions at offset " ++
        toString offset ++ ": " ++ err.message⟩)
    match env.queryError offset with
    | some err => failure err
    | none =>
      match repo.query (QueryContext.newQueryContextFromIDs "" "").withAdmin offset pageSize with
      | .error err => failure err
      | .ok [] => (s, .ok s.totalPurged)
      | .ok (jd :: jobDefs) =>
        let s := (jd :: jobDefs).foldl (purgeDefinition env) s
        if (jd :: jobDefs).length < pageSize then (s, .ok s.totalPurged)
        else purgePages repo fuel (offset + pageSize) s

def purgeAll (repo : JobDefinitionRepository) (h : History) : Purging × Except Error ℕ :=
  purgePages env repo (repo.rows.length + 1) 0 ⟨h, 0, []⟩

end RetentionManager

end Formicary

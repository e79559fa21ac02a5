import Formicary.Library.Table
import Formicary.Model.RequestState

/-! # The queen's database

The rows that scheduling, execution and approval read and write. Columns that no modelled statement
touches are left out. -/

namespace Formicary

abbrev Time := ℤ

structure JobRequest where
  id : String
  jobType : String
  jobVersion : String := ""
  userID : String
  organizationID : String := ""
  jobDefinitionID : String
  jobState : RequestState
  jobExecutionID : Option String := none
  lastJobExecutionID : Option String := none
  userKey : String := ""
  jobPriority : ℤ := 0
  scheduleAttempts : ℕ := 0
  retried : ℕ := 0
  pausedCount : ℕ := 0
  hardRestart : Bool := false
  currentTask : String := ""
  errorCode : String := ""
  errorMessage : String := ""
  scheduledAt : Time := 0
  updatedAt : Time := 0
  parentID : String := ""
  cascadeCancel : Bool := false
  description : String := ""
  deriving DecidableEq, Repr

structure JobExecution where
  id : String
  jobRequestID : String
  jobType : String
  jobVersion : String
  userID : String
  organizationID : String
  jobState : RequestState
  currentTask : String := ""
  errorCode : String := ""
  errorMessage : String := ""
  startedAt : Time
  endedAt : Option Time := none
  updatedAt : Time
  cpuSecs : ℤ := 0
  active : Bool
  deriving DecidableEq, Repr

structure TaskExecution where
  id : String
  jobExecutionID : String
  taskType : String
  taskState : RequestState
  allowFailure : Bool := false
  exitCode : String := ""
  exitMessage : String := ""
  errorCode : String := ""
  errorMessage : String := ""
  comments : String := ""
  taskOrder : ℤ := 0
  endedAt : Option Time := none
  updatedAt : Time
  active : Bool
  deriving DecidableEq, Repr

/-- `ApprovalDecision`: the two decisions, and any other string a caller may send. -/
inductive ApprovalDecision where
  | approved
  | rejected
  | other (text : String)
  deriving DecidableEq, Repr

/-- One approver's decision on a task execution. The table's unique index on the task execution
and the voter makes the pair its key here; the surrogate `id` is read by no statement. -/
structure ApprovalVote where
  taskExecutionID : String
  jobRequestID : String
  voterID : String
  voterName : String
  decision : ApprovalDecision
  comments : String
  votedAt : Time
  deriving DecidableEq, Repr

def ApprovalVote.key (vote : ApprovalVote) : String × String :=
  (vote.taskExecutionID, vote.voterID)

/-- What is done when the deadline for an approval passes. A policy may leave it open, and one
read from a job's YAML may hold any string. -/
inductive TimeoutAction where
  | unspecified
  | autoApprove
  | autoReject
  | escalate
  | other (text : String)
  deriving DecidableEq, Repr

structure ApprovalDeadline where
  id : String
  taskExecutionID : String
  jobRequestID : String
  deadline : Time
  escalated : Bool
  resolved : Bool
  timeoutAction : TimeoutAction
  escalationRecipients : String
  deriving DecidableEq, Repr

/-- A row of a table of which no modelled statement reads more than its foreign key. -/
structure Reference where
  id : String
  ownerID : String
  deriving DecidableEq, Repr

structure Database where
  requests : Table JobRequest.id
  executions : Table JobExecution.id
  tasks : Table TaskExecution.id
  votes : Table ApprovalVote.key
  deadlines : Table ApprovalDeadline.id

def Database.empty : Database :=
  ⟨Table.empty, Table.empty, Table.empty, Table.empty, Table.empty⟩

end Formicary

import Mathlib

/-! # Request states

The states of requests, executions and tasks, the state lists that the SQL guards use, and the
transition table of the request repository. -/

namespace Formicary

/-- The `RequestState` constants. -/
inductive RequestState where
  | pending
  | ready
  | completed
  | failed
  | executing
  | started
  | cancelled
  | paused
  | manualApprovalRequired
  | history
  | running
  | waiting
  | fatal
  | restartJob
  | pauseJob
  | waitForApproval
  | restartTask
  | approved
  | rejected
  | reserved
  | deleted
  | unknown
  deriving DecidableEq, Repr

namespace RequestState

/-- The string behind a constant, which is what the database and the messages hold. -/
def name : RequestState → String
  | pending => "PENDING"
  | ready => "READY"
  | completed => "COMPLETED"
  | failed => "FAILED"
  | executing => "EXECUTING"
  | started => "STARTED"
  | cancelled => "CANCELLED"
  | paused => "PAUSED"
  | manualApprovalRequired => "MANUAL_APPROVAL_REQUIRED"
  | history => "HISTORY"
  | running => "RUNNING"
  | waiting => "WAITING"
  | fatal => "FATAL"
  | restartJob => "RESTART_JOB"
  | pauseJob => "PAUSE_JOB"
  | waitForApproval => "WAIT_FOR_APPROVAL"
  | restartTask => "RESTART_TASK"
  | approved => "APPROVED"
  | rejected => "REJECTED"
  | reserved => "RESERVED"
  | deleted => "DELETED"
  | unknown => "UNKNOWN"

def terminalStates : List RequestState := [completed, failed, cancelled]

def notRestartableStates : List RequestState := [pending, ready, completed]

def orphanStates : List RequestState := [started, ready, executing]

def isTerminal (rs : RequestState) : Bool :=
  rs == completed || rs == failed || rs == cancelled

def canFinalize (rs : RequestState) : Bool :=
  rs.isTerminal || rs == paused || rs == manualApprovalRequired

/-- `Failed`, which a cancelled state satisfies as well. -/
def hasFailed (rs : RequestState) : Bool :=
  rs == failed || rs == cancelled

/-- The transitions `UpdateJobState` accepts when it is told the old state. -/
def canTransitionTo (rs newState : RequestState) : Bool :=
  if rs == failed || rs == cancelled then
    newState == pending
  else if rs == pending || rs == paused then
    newState == ready || newState == failed
  else if rs == manualApprovalRequired then
    newState == ready
  else if rs == ready then
    newState == started || newState == failed || newState == pending || newState == paused
  else if rs == started then
    newState == executing
  else if rs == executing then
    newState == failed || newState == completed || newState == paused ||
      newState == manualApprovalRequired
  else
    false

@[simp] theorem mem_terminalStates {rs : RequestState} :
    rs ∈ terminalStates ↔ rs.isTerminal = true := by
  cases rs <;> decide

end RequestState

end Formicary

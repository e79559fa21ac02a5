import Formicary.Library.Text

/-! # Error codes

The codes the queen itself assigns, and those of the repository. -/

namespace Formicary

namespace ErrorCodes

def jobExecute : String := "ERR_JOB_EXECUTE"
def jobCancelled : String := "ERR_JOB_CANCELLED"
def antsUnavailable : String := "ERR_ANTS_UNAVAILABLE"
def taskExecute : String := "ERR_TASK_EXECUTE"
def invalidNextTask : String := "ERR_INVALID_NEXT_TASK"
def fatal : String := "ERR_FATAL"
def restartJob : String := "ERR_RESTART_JOB"
def pauseJob : String := "ERR_PAUSE_JOB"
def manualApprovalRequired : String := "ERR_MANUAL_APPROVAL_REQUIRED"
def restartTask : String := "ERR_RESTART_TASK"
def taskTimedOut : String := "ERR_TASK_TIMED_OUT"
def validation : String := "ERR_VALIDATION"
def antResources : String := "ERR_ANT_RESOURCES"

end ErrorCodes

/-- What is done about a failure that matches an error code. -/
inductive ErrorCodeAction where
  | suspendJob
  | retryJob
  | retryTask
  | hardFailure
  deriving DecidableEq, Repr

/-- A row of the error code repository, by the fields a supervisor reads after a match. -/
structure ErrorCode where
  errorCode : String
  action : ErrorCodeAction
  retry : ℤ
  deriving DecidableEq, Repr

/-! ## Matching -/

structure ErrorCodeRow extends ErrorCode where
  regex : String
  exitCode : ℤ
  jobType : String
  taskTypeScope : String
  platformScope : String
  commandScope : String
  deriving DecidableEq, Repr

/-- `Validate`, with the error that is set last. -/
def ErrorCodeRow.validate (ec : ErrorCodeRow) : Except String Unit :=
  if ec.regex = "" ∧ ec.exitCode = 0 then .error "regex or exitCode must be specified"
  else if ec.errorCode = "" then .error "errorCode is not specified"
  else .ok ()

namespace ErrorCodeRepository

-- regexp.MatchString: nothing for an expression that does not compile
variable (matchString : String → String → Option Bool)

/-- `Matches` -/
def matchesMessage (ec : ErrorCodeRow) (message : String) : Bool :=
  if message = "" then false
  else matchString ec.regex message == some true

def wildOrEmpty (s : String) : Bool := s == "" || s == "*"

variable (message platform command jobScope taskScope : String)

def matchErrorCode : List ErrorCodeRow → Except String ErrorCodeRow
  | [] => .error ("no matching error code for message=" ++ message ++ " platform=" ++ platform ++
      " command=" ++ command ++ " job=" ++ jobScope ++ " task=" ++ taskScope)
  | errorCode :: errorCodes =>
    if !wildOrEmpty errorCode.platformScope && errorCode.platformScope != platform then
      matchErrorCode errorCodes
    else if !wildOrEmpty errorCode.jobType && errorCode.jobType != jobScope then
      matchErrorCode errorCodes
    else if !wildOrEmpty errorCode.taskTypeScope && errorCode.taskTypeScope != taskScope then
      matchErrorCode errorCodes
    else if !wildOrEmpty errorCode.commandScope &&
        !Text.contains command errorCode.commandScope then
      matchErrorCode errorCodes
    else if matchesMessage matchString errorCode message then .ok errorCode
    else matchErrorCode errorCodes

/-- One level of the comparison of `sortErrorCodes`: the longer text comes first. -/
def longerElse (s t : String) (tie : Bool) : Bool :=
  if s.utf8ByteSize > t.utf8ByteSize then true
  else if s.utf8ByteSize < t.utf8ByteSize then false
  else tie

/-- The comparison of `sortErrorCodes`. -/
def sortsBefore (ec ec' : ErrorCodeRow) : Bool :=
  longerElse ec.platformScope ec'.platformScope <|
    longerElse ec.jobType ec'.jobType <|
    longerElse ec.taskTypeScope ec'.taskTypeScope <|
    longerElse ec.commandScope ec'.commandScope <|
    ec.regex.utf8ByteSize > ec'.regex.utf8ByteSize

/-- What `getAll` may return: at most 10000 of the stored codes, sorted. The sort keeps no order
between codes that compare the same. -/
def GetAll (stored all : List ErrorCodeRow) : Prop :=
  all.Perm (stored.take 10000) ∧ all.Pairwise fun ec ec' => sortsBefore ec' ec = false

/-- `Match` of the cached repository, with the codes of the caller and the global ones. -/
def matchCached (all global : List ErrorCodeRow) : Except String ErrorCodeRow :=
  match matchErrorCode matchString message platform command jobScope taskScope all with
  | .ok ec => .ok ec
  | .error _ => matchErrorCode matchString message platform command jobScope taskScope global

end ErrorCodeRepository

end Formicary

import Formicary.Model.JobDefinition

/-! # Task requests

What the queen sends to the tasklets and ants that run a task. -/

namespace Formicary

/-! ## Variables -/

/-- The value of a variable. A number appears by the name of its Go type and by the text that `%v`
prints for it. -/
inductive Value where
  | string (s : String)
  | bool (b : Bool)
  | number (kind printed : String)
  deriving DecidableEq, Repr

namespace Value

/-- What `fmt.Sprintf("%v", value)` prints. -/
def print : Value → String
  | .string s => s
  | .bool b => if b then "true" else "false"
  | .number _ printed => printed

/-- What `fmt.Sprintf("%s", value)` prints: the verb is only right for strings. -/
def printString : Value → String
  | .string s => s
  | .bool b => "%!s(bool=" ++ (Value.bool b).print ++ ")"
  | .number kind printed => "%!s(" ++ kind ++ "=" ++ printed ++ ")"

end Value

structure VariableValue where
  value : Value
  secret : Bool
  deriving DecidableEq, Repr

/-- A map from names to values, in the order in which a loop ranges over it. -/
abbrev Variables := List (String × VariableValue)

/-- `MaskVariableValues`, which leaves out the secrets. -/
def maskVariableValues (all : Variables) : Variables :=
  all.filter fun v => !v.2.secret

/-! ## Executor options -/

structure SubWorkflowVariable where
  name : String
  value : String
  deriving DecidableEq, Repr

structure SubWorkflowConfig where
  inputParams : List SubWorkflowVariable
  deriving DecidableEq, Repr

/-- `InputMap`: the parameters with what they are computed from, none of them twice. -/
def SubWorkflowConfig.inputMap (sw : SubWorkflowConfig) : Except Error (List SubWorkflowVariable) :=
  sw.inputParams.foldlM (fun m v =>
      if m.any fun w => w.name == v.name then
        .error ⟨.plain, "sub_workflow.input_params: duplicate name " ++ v.name.quote⟩
      else .ok (m ++ [v])) []

structure FanOutConfig where
  source : String
  itemVar : String
  maxParallel : ℤ
  forkJobType : String
  forkJobVersion : String
  deriving DecidableEq, Repr

namespace FanOutConfig

def validate (f : FanOutConfig) : Except Error Unit :=
  if f.source = "" then .error ⟨.plain, "fan_out.source is required"⟩
  else if f.source.utf8ByteSize > 200 then
    .error ⟨.plain, "fan_out.source is too long (max 200 chars)"⟩
  else if f.itemVar = "" then .error ⟨.plain, "fan_out.item_var is required"⟩
  else if f.itemVar.utf8ByteSize > 100 then
    .error ⟨.plain, "fan_out.item_var is too long (max 100 chars)"⟩
  else if f.maxParallel < 0 then
    .error ⟨.plain, "fan_out.max_parallel must be >= 0 (0 = unlimited)"⟩
  else if f.forkJobType.utf8ByteSize > 200 then
    .error ⟨.plain, "fan_out.fork_job_type is too long (max 200 chars)"⟩
  else .ok ()

def isJobFanOut (f : FanOutConfig) : Bool :=
  f.forkJobType ≠ ""

end FanOutConfig

structure CacheConfig where
  paths : List String := []
  key : String := ""
  keyPaths : List String := []
  deriving DecidableEq, Repr

def CacheConfig.valid (cache : CacheConfig) : Bool :=
  !cache.paths.isEmpty && (!cache.keyPaths.isEmpty || cache.key ≠ "")

structure ExecutorOptions where
  method : TaskMethod
  forkJobType : String := ""
  forkJobVersion : String := ""
  subWorkflow : Option SubWorkflowConfig := none
  fanOut : Option FanOutConfig := none
  image : String := ""
  helperImage : String := ""
  artifactsDirectory : String := ""
  dependentArtifactIDs : List String := []
  cache : CacheConfig := {}
  reportStdout : Bool := false
  debug : Bool := false
  privileged : Bool := false
  deriving DecidableEq, Repr

/-! ## Requests -/

structure TaskRequest where
  userID : String
  organizationID : String
  jobRequestID : String
  jobType : String
  taskType : String
  vars : Variables
  executorOpts : ExecutorOptions
  beforeScript : List String := []
  script : List String := []
  afterScript : List String := []
  cancelled : Bool := false
  deriving DecidableEq, Repr

end Formicary

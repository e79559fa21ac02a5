import Formicary.Model.TaskRequest

/-! # The request executor of an ant

`Execute` runs the three scripts of a task, moves artifacts before and after the main one, and fills
in the response on the way. What the executor, the artifact service and the container do is given.
-/

namespace Formicary.Ant

open RequestState

/-! ## Masking -/

def maskedText : String := "[****]"

def getMaskFields (req : TaskRequest) : List String :=
  (req.vars.filter fun v => v.2.secret).map fun v => v.2.value.printString

def mask (req : TaskRequest) (s : String) : String :=
  if s = "" then s
  else (getMaskFields req).foldl (fun s next => Text.replaceAll s next maskedText) s

/-! ## Responses -/

/-- The parts of a response that are filled in with texts, and the status. The values of a context
appear as they are printed. -/
structure TaskResponse where
  status : RequestState
  errorMessage : String
  exitCode : String
  exitMessage : String
  failedCommand : String
  taskContext : List (String × String)
  jobContext : List (String × String)
  warnings : List String
  stdout : List String
  deriving DecidableEq, Repr

namespace TaskResponse

def newTaskResponse : TaskResponse where
  status := unknown
  errorMessage := ""
  exitCode := ""
  exitMessage := ""
  failedCommand := ""
  taskContext := []
  jobContext := []
  warnings := []
  stdout := []

variable (resp : TaskResponse)

def addContext (name value : String) : TaskResponse :=
  { resp with taskContext := resp.taskContext.filter (fun c => c.1 ≠ name) ++ [(name, value)] }

def addJobContext (name value : String) : TaskResponse :=
  { resp with jobContext := resp.jobContext.filter (fun c => c.1 ≠ name) ++ [(name, value)] }

def additionalError (warning : String) (fatal : Bool) : TaskResponse :=
  let warning := Text.trimSpace warning
  if warning = "" then resp
  else if fatal ∧ resp.status ≠ failed then
    { resp with errorMessage := warning, status := failed }
  else { resp with warnings := resp.warnings ++ [warning] }

end TaskResponse

open TaskResponse

/-! ## Scripts -/

/-- What one command comes to, and the error of keeping its output as an artifact. -/
structure CommandResult where
  stdout : String := ""
  exitCode : ℤ := 0
  exitMessage : String := ""
  err : Option String := none
  captureError : Option String := none
  deriving DecidableEq, Repr

/-- A run of a script: the results of its commands in turn, and the error of the context in the
end. A command past the last result prints nothing and succeeds. -/
structure ScriptRun where
  results : List CommandResult := []
  ended : Option String := none
  deriving DecidableEq, Repr

def supportsCaptureStdout : TaskMethod → Bool
  | .httpGet | .httpDelete | .httpPostForm | .httpPostJSON | .httpPutForm | .httpPutJSON
  | .shell => true
  | _ => false

/-- The pairs that the output of a command sets by lines `::set-output name=key::value`. -/
def setOutputs (stdout : String) : List (String × String) :=
  (Text.lines stdout).filterMap fun line =>
    let line := Text.trimSpace line
    let start := "::set-output name="
    if Text.startsWith line start then
      (Text.cut (String.ofList (line.toList.drop start.length)) "::").filter fun cut => cut.1 ≠ ""
    else none

variable (req : TaskRequest)

def afterCommand (cmd : String) (r : CommandResult) (resp : TaskResponse) : TaskResponse :=
  { resp with
    exitCode :=
      if resp.exitCode = "" ∨ r.exitCode > 0 then toString r.exitCode else resp.exitCode
    exitMessage := if resp.exitMessage = "" then mask req r.exitMessage else resp.exitMessage
    failedCommand :=
      if r.err.isSome ∧ resp.failedCommand = "" then mask req cmd else resp.failedCommand }

/-- What the loop of `execute` does with the output of a command. -/
def addOutput (r : CommandResult) (resp : TaskResponse) : TaskResponse :=
  let resp :=
    if r.err.isNone ∧ req.executorOpts.reportStdout then
      { resp with stdout := resp.stdout ++ [r.stdout] }
    else resp
  (setOutputs r.stdout).foldl (fun resp output => resp.addJobContext output.1 output.2) resp

/-- The error of `addArtifactToPath`, which keeps no empty output. -/
def captureError (r : CommandResult) : Option String :=
  if supportsCaptureStdout req.executorOpts.method ∧ r.stdout ≠ "" then r.captureError else none

/-- The loop of `execute` over the commands that are left, with the last error so far. -/
def executeFrom (failOnError : Bool) (ended : Option String) :
    List String → List CommandResult → Option String → TaskResponse → TaskResponse × Option String
  | [], _, lastError, resp => (resp, lastError.or ended)
  | cmd :: cmds, results, lastError, resp =>
    let r := results.headD {}
    let resp := afterCommand req cmd r resp
    if failOnError ∧ r.err.isSome then (resp, r.err)
    else
      let resp := addOutput req r resp
      if failOnError ∧ (captureError req r).isSome then (resp, captureError req r)
      else
        executeFrom failOnError ended cmds results.tail
          ((captureError req r).or (r.err.or lastError)) resp

def executeScript (cmds : List String) (failOnError : Bool) (run : ScriptRun)
    (resp : TaskResponse) : TaskResponse × Option String :=
  executeFrom req failOnError run.ended cmds run.results none resp

/-! ## Artifacts -/

/-- What downloading meets: the artifacts that other tasks have left, the command that copies them,
and the digest of the cache. -/
structure Download where
  artifactError : Option String := none
  copyStdout : String := ""
  copyStderr : String := ""
  copyError : Option String := none
  digest : String := ""
  digestError : Option String := none
  deriving DecidableEq, Repr

/-- What uploading meets. The text of an artifact that is not valid is that of the error. -/
structure Upload where
  hasPaths : Bool := false
  artifactError : Option String := none
  artifactInvalid : Option String := none
  cacheError : Option String := none
  cacheInvalid : Option String := none
  deriving DecidableEq, Repr

def buildArtifactTransferService : Option String :=
  match req.executorOpts.method with
  | .shell | .httpGet | .httpPostForm | .httpPostJSON | .httpPutJSON | .httpDelete | .webSocket
  | .kubernetes | .docker => none
  | method => some ("failed to find artifact transfer service for " ++ method.name)

def supportsDependentArtifacts : TaskMethod → Bool
  | .shell | .docker | .kubernetes => true
  | _ => false

def supportsCache : TaskMethod → Bool
  | .docker | .kubernetes => true
  | _ => false

/-- `downloadDependentArtifacts`, whose error is not looked at. -/
def downloadDependentArtifacts (d : Download) (resp : TaskResponse) : TaskResponse :=
  match d.artifactError, d.copyError with
  | some err, _ => resp.additionalError err true
  | none, some err =>
    resp.additionalError
      ("failed to extract dependent artifact due to " ++ err ++ ", stderr=" ++ d.copyStderr) true
  | none, none =>
    if d.copyStdout = "" then
      resp.additionalError ("dependent artifact extraction produced no output in " ++
          req.executorOpts.artifactsDirectory ++
          "/extracted-artifacts — files may not have copied") false
    else resp

/-- The key that `downloadCache` finds, and the error of computing it. -/
def cacheDigest (d : Download) : String × Option String :=
  let cache := req.executorOpts.cache
  if cache.key = "" ∧ !cache.keyPaths.isEmpty then (d.digest, d.digestError) else (cache.key, none)

/-- `downloadCache`, as far as it changes the response. -/
def downloadCache (d : Download) (resp : TaskResponse) : TaskResponse :=
  match (cacheDigest req d).2 with
  | some err => resp.additionalError err false
  | none => resp

/-- `Cache.Valid` for a method that has a cache. -/
def usesCache : Bool :=
  req.executorOpts.cache.valid && supportsCache req.executorOpts.method

/-- `SetupCacheAndDownloadArtifacts` after the service has been found. Whatever happens to the
artifacts, it returns no error. -/
def setupCacheAndDownloadArtifacts (d : Download) (resp : TaskResponse) : TaskResponse :=
  let resp :=
    if supportsDependentArtifacts req.executorOpts.method ∧
        !req.executorOpts.dependentArtifactIDs.isEmpty then
      downloadDependentArtifacts req d resp
    else resp
  if usesCache req then downloadCache req d resp else resp

/-- `uploadCache`. There is a key only if one was found before the script. -/
def uploadCache (d : Option Download) (u : Upload) (resp : TaskResponse) : TaskResponse :=
  let newKeyDigest := (d.map fun d => (cacheDigest req d).1).getD ""
  if newKeyDigest = "" then resp
  else
    match u.cacheError, u.cacheInvalid with
    | some err, _ => resp.additionalError err false
    | none, some err => resp.additionalError err false
    | none, none => resp.addContext "CachedArtifactKey" newKeyDigest

/-- `UploadCacheAndArtifacts`, where `d` is what the download came to if the task got that far. -/
def uploadCacheAndArtifacts (d : Option Download) (u : Upload) (resp : TaskResponse) :
    TaskResponse × Option String :=
  match buildArtifactTransferService req with
  | some err => (resp, some err)
  | none =>
    match u.hasPaths, u.artifactError, u.artifactInvalid with
    | true, some err, _ => (resp.additionalError err true, some err)
    | true, none, some err => (resp, some err)
    | _, _, _ => (if usesCache req then uploadCache req d u resp else resp, none)

/-! ## Execution -/

/-- The executor of the task, as it is described in the response. -/
structure Container where
  id : String := ""
  name : String := ""
  state : String := ""
  host : String := ""
  containerIP : String := ""
  deriving DecidableEq, Repr

structure AntConfig where
  kubernetesNamespace : String := ""
  kubernetesHost : String := ""
  dockerHost : String := ""
  dockerServer : String := ""
  deriving DecidableEq, Repr

/-- Everything that a task meets on the ant. -/
structure Surroundings where
  config : AntConfig := {}
  preProcessError : Option String := none
  before : ScriptRun := {}
  download : Download := {}
  main : ScriptRun := {}
  after : ScriptRun := {}
  upload : Upload := {}
  container : Container := {}
  deriving DecidableEq, Repr

/-- What `updateResponseContext` adds about the containers. -/
def containerContext (config : AntConfig) (container : Container) : List (String × String) :=
  [("Image", req.executorOpts.image), ("HelperImage", req.executorOpts.helperImage)] ++
  (match req.executorOpts.method with
    | .kubernetes =>
      ("Namespace", config.kubernetesNamespace) ::
        (if config.kubernetesHost ≠ "" then [("KubernetesHost", config.kubernetesHost)] else [])
    | .docker => [("DockerHost", config.dockerHost), ("DockerServer", config.dockerServer)]
    | _ => []) ++
  [("ContainerID", container.id), ("ContainerName", container.name),
    ("ContainerState", container.state)] ++
  (if container.host ≠ "" then [("ContainerHost", container.host)] else []) ++
  (if container.containerIP ≠ "" then [("ContainerIP", container.containerIP)] else [])

def updateResponseContext (config : AntConfig) (container : Container) (resp : TaskResponse) :
    TaskResponse :=
  (containerContext req config container).foldl
    (fun resp context => resp.addContext context.1 context.2)
    (resp.addJobContext (req.taskType ++ "-status") resp.status.name)

def postProcess (env : Surroundings) (d : Option Download) (resp : TaskResponse) : TaskResponse :=
  let resp :=
    if !req.cancelled ∧ env.container.state ≠ "CONTAINER_FAILED" then
      match uploadCacheAndArtifacts req d env.upload resp with
      | (resp, some err) =>
        resp.additionalError ("failed to upload artifacts due to '" ++ err ++ "'") true
      | (resp, none) => resp
    else resp
  updateResponseContext req env.config env.container resp

/-- The part of `Execute` from the first script to the end of the main one, with whether the
artifacts were looked at. -/
def runScripts (env : Surroundings) (resp : TaskResponse) : TaskResponse × Option Download :=
  match executeScript req req.beforeScript true env.before resp with
  | (resp, some err) => ({ resp with status := failed, errorMessage := mask req err }, none)
  | (resp, none) =>
    match buildArtifactTransferService req with
    | some err => ({ resp with status := failed, errorMessage := err }, none)
    | none =>
      let resp := setupCacheAndDownloadArtifacts req env.download resp
      let d := if usesCache req then some env.download else none
      match executeScript req req.script true env.main resp with
      | (resp, some err) => ({ resp with status := failed, errorMessage := mask req err }, d)
      | (resp, none) => ({ resp with status := completed }, d)

/-- The commands that the loop of `execute` starts. -/
def startedFrom (failOnError : Bool) : List String → List CommandResult → List String
  | [], _ => []
  | cmd :: cmds, results =>
    let r := results.headD {}
    cmd :: (if failOnError ∧ (r.err.isSome ∨ (captureError req r).isSome) then []
        else startedFrom failOnError cmds results.tail)

/-- The commands of the main script that `Execute` starts. -/
def startedMain (env : Surroundings) : List String :=
  match env.preProcessError, (executeScript req req.beforeScript true env.before
      newTaskResponse).2, buildArtifactTransferService req with
  | none, none, none => startedFrom req true req.script env.main.results
  | _, _, _ => []

def afterCommands : List String :=
  if req.executorOpts.debug ∧ req.executorOpts.privileged then
    req.afterScript ++
      ["echo system memory in bytes && cat /sys/fs/cgroup/memory/memory.usage_in_bytes && " ++
        "echo cpu usage in nanoseconds && cat /sys/fs/cgroup/cpu/cpuacct.usage && df -k"]
  else req.afterScript

def execute (env : Surroundings) : TaskResponse :=
  match env.preProcessError with
  | some err => { newTaskResponse with status := failed, errorMessage := mask req err }
  | none =>
    let (resp, d) := runScripts req env newTaskResponse
    let resp :=
      match executeScript req (afterCommands req) false env.after resp with
      | (resp, some err) => resp.additionalError err false
      | (resp, none) => resp
    postProcess req env d resp

end Formicary.Ant

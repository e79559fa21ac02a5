import Formicary.Model.RequestExecutor

/-! # Tasks and their inputs

Whether a task fails is decided by its scripts and by what is uploaded in the end. -/

namespace Formicary.Ant

open RequestState Ant.TaskResponse

variable {req : TaskRequest} {env : Surroundings}

def SameOutcome (resp resp' : TaskResponse) : Prop :=
  resp'.status = resp.status ∧ resp'.errorMessage = resp.errorMessage

/-- The response is a failure now. The message of an earlier one is kept. -/
structure Fails (resp resp' : TaskResponse) : Prop where
  status : resp'.status = failed
  kept : resp.status = failed → resp'.errorMessage = resp.errorMessage
  message : resp.status ≠ failed → resp'.errorMessage ≠ ""

section Outcomes

variable {resp resp' resp'' : TaskResponse}

theorem SameOutcome.refl (resp : TaskResponse) : SameOutcome resp resp := ⟨rfl, rfl⟩

theorem SameOutcome.trans (h : SameOutcome resp resp') (h' : SameOutcome resp' resp'') :
    SameOutcome resp resp'' :=
  ⟨h'.1.trans h.1, h'.2.trans h.2⟩

theorem Fails.sameOutcome (h : Fails resp resp') (h' : SameOutcome resp' resp'') :
    Fails resp resp'' where
  status := h'.1.trans h.status
  kept hfail := h'.2.trans (h.kept hfail)
  message hfail := h'.2 ▸ h.message hfail

theorem SameOutcome.fails (h : SameOutcome resp resp') (h' : Fails resp' resp'') :
    Fails resp resp'' where
  status := h'.status
  kept hfail := (h'.kept (h.1.trans hfail)).trans h.2
  message hne := h'.message (h.1 ▸ hne)

theorem Fails.trans (h : Fails resp resp') (h' : Fails resp' resp'') : Fails resp resp'' where
  status := h'.status
  kept hfail := (h'.kept h.status).trans (h.kept hfail)
  message hfail := by
    rw [h'.kept h.status]
    exact h.message hfail

theorem additionalError_sameOutcome (warning : String) :
    SameOutcome resp (resp.additionalError warning false) := by
  unfold additionalError
  dsimp only
  split
  · exact SameOutcome.refl resp
  · exact ⟨rfl, rfl⟩

theorem additionalError_fails {warning : String} (h : Text.trimSpace warning ≠ "") :
    Fails resp (resp.additionalError warning true) := by
  unfold additionalError
  rw [if_neg h]
  by_cases hfail : resp.status = failed
  · rw [if_neg (by simp [hfail])]
    exact ⟨hfail, fun _ => rfl, fun hne => absurd hfail hne⟩
  · rw [if_pos ⟨rfl, hfail⟩]
    exact ⟨rfl, fun hf => absurd hf hfail, fun _ => h⟩

theorem addAll_sameOutcome (add : TaskResponse → String → String → TaskResponse)
    (hadd : ∀ resp name value, SameOutcome resp (add resp name value))
    (pairs : List (String × String)) (resp : TaskResponse) :
    SameOutcome resp (pairs.foldl (fun resp pair => add resp pair.1 pair.2) resp) := by
  induction pairs generalizing resp with
  | nil => exact SameOutcome.refl resp
  | cons pair pairs ih => exact (hadd resp pair.1 pair.2).trans (ih _)

end Outcomes

def scriptError (req : TaskRequest) (cmds : List String) (failOnError : Bool) (run : ScriptRun) :
    Option String :=
  (executeScript req cmds failOnError run newTaskResponse).2

theorem addOutput_sameOutcome (req : TaskRequest) (r : CommandResult) (resp : TaskResponse) :
    SameOutcome resp (addOutput req r resp) := by
  refine SameOutcome.trans ?_ (addAll_sameOutcome addJobContext (fun _ _ _ => ⟨rfl, rfl⟩) _ _)
  split
  · exact ⟨rfl, rfl⟩
  · exact SameOutcome.refl resp

theorem executeFrom_spec (req : TaskRequest) (failOnError : Bool) (ended : Option String)
    (cmds : List String) (results : List CommandResult) (lastError : Option String)
    (resp resp' : TaskResponse) :
    SameOutcome resp (executeFrom req failOnError ended cmds results lastError resp).1 ∧
      (executeFrom req failOnError ended cmds results lastError resp).2 =
        (executeFrom req failOnError ended cmds results lastError resp').2 := by
  induction cmds generalizing results lastError resp resp' with
  | nil => exact ⟨SameOutcome.refl resp, rfl⟩
  | cons cmd cmds ih =>
    have hafter : SameOutcome resp (afterCommand req cmd (results.headD {}) resp) := ⟨rfl, rfl⟩
    rw [executeFrom, executeFrom]
    split
    · exact ⟨hafter, rfl⟩
    have hout := hafter.trans (addOutput_sameOutcome req (results.headD {}) _)
    split
    · exact ⟨hout, rfl⟩
    obtain ⟨hrest, herr⟩ := ih results.tail _ _ _
    exact ⟨hout.trans hrest, herr⟩

variable {resp resp' : TaskResponse} {err : Option String}

theorem executeScript_spec {cmds : List String} {failOnError : Bool} {run : ScriptRun}
    (h : executeScript req cmds failOnError run resp = (resp', err)) :
    SameOutcome resp resp' ∧ scriptError req cmds failOnError run = err := by
  have hspec :=
    executeFrom_spec req failOnError run.ended cmds run.results none resp newTaskResponse
  rw [executeScript] at h
  rw [h] at hspec
  exact ⟨hspec.1, hspec.2.symm⟩

def scriptsFail (req : TaskRequest) (env : Surroundings) : Bool :=
  (scriptError req req.beforeScript true env.before).isSome ||
    (buildArtifactTransferService req).isSome || (scriptError req req.script true env.main).isSome

theorem runScripts_status (req : TaskRequest) (env : Surroundings) (resp : TaskResponse) :
    (runScripts req env resp).1.status = if scriptsFail req env then failed else completed := by
  unfold runScripts scriptsFail
  split
  · next hrun => simp [(executeScript_spec hrun).2]
  next hrun =>
  split
  · next herr => simp [herr]
  next hserv =>
  dsimp only
  split
  · next hrun' => simp [(executeScript_spec hrun').2]
  · next hrun' => simp [(executeScript_spec hrun).2, hserv, (executeScript_spec hrun').2]

theorem runScripts_errorMessage {err : String}
    (hbef : scriptError req req.beforeScript true env.before = none)
    (hserv : buildArtifactTransferService req = none)
    (hmain : scriptError req req.script true env.main = some err) (resp : TaskResponse) :
    (runScripts req env resp).1.errorMessage = mask req err := by
  unfold runScripts
  split
  · next hrun => cases hbef.symm.trans (executeScript_spec hrun).2
  rw [hserv]
  dsimp only
  split
  · next hrun =>
    cases hmain.symm.trans (executeScript_spec hrun).2
    rfl
  · next hrun => cases hmain.symm.trans (executeScript_spec hrun).2

def uploadError (req : TaskRequest) (env : Surroundings) : Option String :=
  if !req.cancelled ∧ env.container.state ≠ "CONTAINER_FAILED" then
    (uploadCacheAndArtifacts req none env.upload newTaskResponse).2
  else none

theorem uploadCache_sameOutcome (req : TaskRequest) (d : Option Download) (u : Upload)
    (resp : TaskResponse) : SameOutcome resp (uploadCache req d u resp) := by
  unfold uploadCache
  dsimp only
  split
  · exact SameOutcome.refl resp
  split
  · exact additionalError_sameOutcome _
  · exact additionalError_sameOutcome _
  · exact ⟨rfl, rfl⟩

theorem uploadCacheAndArtifacts_spec {d : Option Download} {u : Upload}
    (h : uploadCacheAndArtifacts req d u resp = (resp', err)) :
    (SameOutcome resp resp' ∨ err.isSome ∧ Fails resp resp') ∧
      (uploadCacheAndArtifacts req none u newTaskResponse).2 = err := by
  unfold uploadCacheAndArtifacts at h ⊢
  split at h
  · cases h
    exact ⟨.inl (SameOutcome.refl resp), rfl⟩
  split at h <;> cases h
  · next err _ _ =>
    refine ⟨?_, rfl⟩
    by_cases htext : Text.trimSpace err = ""
    · refine .inl ?_
      simp [additionalError, htext, SameOutcome]
    · exact .inr ⟨rfl, additionalError_fails htext⟩
  · exact ⟨.inl (SameOutcome.refl resp), rfl⟩
  · refine ⟨.inl ?_, rfl⟩
    split
    · exact uploadCache_sameOutcome req d u resp
    · exact SameOutcome.refl resp

theorem postProcess_spec (req : TaskRequest) (env : Surroundings) (d : Option Download)
    (resp : TaskResponse) :
    (uploadError req env = none → SameOutcome resp (postProcess req env d resp)) ∧
      ((uploadError req env).isSome → Fails resp (postProcess req env d resp)) := by
  have hctx : ∀ resp,
      SameOutcome resp (updateResponseContext req env.config env.container resp) := fun resp =>
    .trans ⟨rfl, rfl⟩ (addAll_sameOutcome addContext (fun _ _ _ => ⟨rfl, rfl⟩) _ _)
  unfold postProcess uploadError
  split
  · split
    · next resp' err hupl =>
      obtain ⟨hout, herr⟩ := uploadCacheAndArtifacts_spec hupl
      rw [herr]
      refine ⟨fun hnone => absurd hnone (Option.some_ne_none err), fun _ => ?_⟩
      have hfails : Fails resp'
          (resp'.additionalError ("failed to upload artifacts due to '" ++ err ++ "'") true) := by
        refine additionalError_fails (Text.trimSpace_ne_empty (c := 'f') ?_ (by decide))
        simp
      rcases hout with hsame | ⟨-, hfail⟩
      · exact (hsame.fails hfails).sameOutcome (hctx _)
      · exact (hfail.trans hfails).sameOutcome (hctx _)
    · next hupl =>
      obtain ⟨hout, herr⟩ := uploadCacheAndArtifacts_spec hupl
      rw [herr]
      refine ⟨fun _ => ?_, nofun⟩
      rcases hout with hsame | ⟨hsome, -⟩
      · exact hsame.trans (hctx _)
      · cases hsome
  · exact ⟨fun _ => hctx resp, nofun⟩

def taskFails (req : TaskRequest) (env : Surroundings) : Bool :=
  scriptsFail req env || (uploadError req env).isSome

theorem execute_eq (req : TaskRequest) (hpre : env.preProcessError = none) :
    ∃ resp, SameOutcome (runScripts req env newTaskResponse).1 resp ∧
      execute req env = postProcess req env (runScripts req env newTaskResponse).2 resp := by
  unfold execute
  simp only [hpre]
  cases hrun : executeScript req (afterCommands req) false env.after
      (runScripts req env newTaskResponse).1 with
  | mk resp err =>
    have hafter := (executeScript_spec hrun).1
    cases err with
    | none => exact ⟨resp, hafter, rfl⟩
    | some err => exact ⟨_, hafter.trans (additionalError_sameOutcome err), rfl⟩

theorem execute_status (hpre : env.preProcessError = none) :
    (execute req env).status = if taskFails req env then failed else completed := by
  obtain ⟨resp, hresp, heq⟩ := execute_eq req hpre
  obtain ⟨hsame, hfails⟩ := postProcess_spec req env (runScripts req env newTaskResponse).2 resp
  have hscrs := runScripts_status req env newTaskResponse
  rw [heq]
  unfold taskFails
  cases hupl : uploadError req env with
  | none => rw [(hsame hupl).1, hresp.1, hscrs, Option.isSome_none, Bool.or_false]
  | some =>
    rw [(hfails (by simp [hupl])).status, Option.isSome_some, Bool.or_true, if_pos rfl]

/-- The task has come to its dependent artifacts, and one cannot be downloaded or they cannot be
extracted. -/
structure InputsFail (req : TaskRequest) (env : Surroundings) : Prop where
  setUp : env.preProcessError = none
  before : scriptError req req.beforeScript true env.before = none
  supported : supportsDependentArtifacts req.executorOpts.method = true
  wanted : req.executorOpts.dependentArtifactIDs ≠ []
  missing : env.download.artifactError.isSome ∨ env.download.copyError.isSome ∨
    env.download.copyStdout = ""

theorem service_of_supported (h : supportsDependentArtifacts req.executorOpts.method = true) :
    buildArtifactTransferService req = none := by
  unfold buildArtifactTransferService
  cases hm : req.executorOpts.method <;> simp_all [supportsDependentArtifacts]

section Inputs

variable (h : InputsFail req env)
include h

theorem InputsFail.startedMain :
    startedMain req env = startedFrom req true req.script env.main.results := by
  have hbef : (executeScript req req.beforeScript true env.before newTaskResponse).2 = none :=
    h.before
  unfold Ant.startedMain
  rw [h.setUp, hbef, service_of_supported h.supported]

theorem InputsFail.startedMain_eq_nil : Ant.startedMain req env = [] ↔ req.script = [] := by
  rw [h.startedMain]
  cases req.script with
  | nil | cons => simp [startedFrom]

theorem InputsFail.status : (execute req env).status = failed ↔
      (scriptError req req.script true env.main).isSome ∨ (uploadError req env).isSome := by
  rw [execute_status h.setUp, taskFails, scriptsFail, h.before, service_of_supported h.supported]
  cases scriptError req req.script true env.main <;> cases uploadError req env <;> simp

theorem InputsFail.errorMessage_of_script {err : String}
    (herr : scriptError req req.script true env.main = some err) :
    (execute req env).errorMessage = mask req err := by
  obtain ⟨resp, hresp, heq⟩ := execute_eq req h.setUp
  have hserv := service_of_supported h.supported
  have hstat : resp.status = failed := by
    rw [hresp.1, runScripts_status, if_pos (by simp [scriptsFail, herr])]
  have hmsg : resp.errorMessage = mask req err := by
    rw [hresp.2, runScripts_errorMessage h.before hserv herr]
  obtain ⟨hsame, hfails⟩ := postProcess_spec req env (runScripts req env newTaskResponse).2 resp
  rw [heq, ← hmsg]
  cases hupl : uploadError req env with
  | none => exact (hsame hupl).2
  | some => exact (hfails (by simp [hupl])).kept hstat

theorem InputsFail.errorMessage_of_upload (hscr : scriptError req req.script true env.main = none)
    (hupl : (uploadError req env).isSome) : (execute req env).errorMessage ≠ "" := by
  obtain ⟨resp, hresp, heq⟩ := execute_eq req h.setUp
  have hstat := runScripts_status req env newTaskResponse
  have hfails : scriptsFail req env = false := by
    simp [scriptsFail, h.before, service_of_supported h.supported, hscr]
  rw [hfails, if_neg Bool.false_ne_true] at hstat
  rw [heq]
  refine ((postProcess_spec req env _ resp).2 hupl).message ?_
  rw [hresp.1, hstat]
  decide

end Inputs

theorem mask_ne_empty {text : String} (h : text ≠ "") : mask req text ≠ "" := by
  have hflds : ∀ (fields : List String) (text : String), text ≠ "" →
      fields.foldl (fun s next => Text.replaceAll s next maskedText) text ≠ "" := by
    intro fields
    induction fields with
    | nil => exact fun _ htext => htext
    | cons field fields ih =>
      exact fun _ htext => ih _ (Text.replaceAll_ne_empty htext (by decide) field)
  unfold mask
  rw [if_neg h]
  exact hflds _ text h

def withoutCache (req : TaskRequest) : TaskRequest :=
  { req with executorOpts := { req.executorOpts with cache := {} } }

theorem executeFrom_withoutCache (failOnError : Bool) (ended : Option String) (cmds : List String)
    (results : List CommandResult) (lastError : Option String) (resp : TaskResponse) :
    executeFrom (withoutCache req) failOnError ended cmds results lastError resp =
      executeFrom req failOnError ended cmds results lastError resp := by
  induction cmds generalizing results lastError resp with
  | nil => rfl
  | cons cmd cmds ih =>
    rw [executeFrom, executeFrom]
    dsimp only
    rw [ih]
    rfl

theorem startedFrom_withoutCache (failOnError : Bool) (cmds : List String)
    (results : List CommandResult) :
    startedFrom (withoutCache req) failOnError cmds results =
      startedFrom req failOnError cmds results := by
  induction cmds generalizing results with
  | nil => rfl
  | cons cmd cmds ih =>
    rw [startedFrom, startedFrom, ih]
    rfl

theorem scriptError_withoutCache (cmds : List String) (failOnError : Bool) (run : ScriptRun) :
    scriptError (withoutCache req) cmds failOnError run = scriptError req cmds failOnError run := by
  unfold scriptError executeScript
  rw [executeFrom_withoutCache]

theorem uploadError_withoutCache : uploadError (withoutCache req) env = uploadError req env := by
  have hserv :
      buildArtifactTransferService (withoutCache req) = buildArtifactTransferService req := rfl
  have herr : (uploadCacheAndArtifacts (withoutCache req) none env.upload newTaskResponse).2 =
      (uploadCacheAndArtifacts req none env.upload newTaskResponse).2 := by
    unfold uploadCacheAndArtifacts
    rw [hserv]
    cases buildArtifactTransferService req with
    | some => rfl
    | none =>
      cases env.upload.hasPaths <;> cases env.upload.artifactError <;>
        cases env.upload.artifactInvalid <;> rfl
  unfold uploadError
  rw [herr]
  rfl

theorem startedMain_withoutCache : startedMain (withoutCache req) env = startedMain req env := by
  have hbef : (executeScript (withoutCache req) (withoutCache req).beforeScript true env.before
      newTaskResponse).2 = (executeScript req req.beforeScript true env.before newTaskResponse).2 :=
    scriptError_withoutCache _ _ _
  have hmain : startedFrom (withoutCache req) true (withoutCache req).script env.main.results =
      startedFrom req true req.script env.main.results :=
    startedFrom_withoutCache _ _ _
  unfold startedMain
  rw [hbef, hmain]
  rfl

theorem execute_status_withoutCache :
    (execute (withoutCache req) env).status = (execute req env).status := by
  cases hpre : env.preProcessError with
  | some => simp [execute, hpre]
  | none =>
    have hscrs : scriptsFail (withoutCache req) env = scriptsFail req env := by
      unfold scriptsFail
      rw [scriptError_withoutCache, scriptError_withoutCache]
      rfl
    rw [execute_status hpre, execute_status hpre, taskFails, taskFails, hscrs,
      uploadError_withoutCache]

/-- A task whose dependent artifacts are missing runs its script all the same, and it is a failure
only by the script or by the uploads. Caches do not matter to either. -/
theorem missing_inputs_spec (req : TaskRequest) (env : Surroundings) :
    (InputsFail req env → (∀ err ∈ env.main.ended, err ≠ "") →
      (startedMain req env = [] ∧ (execute req env).status = failed ∧
          (execute req env).errorMessage ≠ "" ↔
        req.script = [] ∧ (env.main.ended.isSome ∨ (uploadError req env).isSome))) ∧
      startedMain (withoutCache req) env = startedMain req env ∧
      (execute (withoutCache req) env).status = (execute req env).status := by
  refine ⟨fun h hended => ?_, startedMain_withoutCache, execute_status_withoutCache⟩
  rw [h.startedMain_eq_nil, h.status]
  -- a script without commands ends with the error of its context
  have hempty : req.script = [] → scriptError req req.script true env.main = env.main.ended := by
    intro hscr
    rw [hscr]
    rfl
  constructor
  · rintro ⟨hscr, hfail, -⟩
    rw [hempty hscr] at hfail
    exact ⟨hscr, hfail⟩
  · rintro ⟨hscr, hfail⟩
    refine ⟨hscr, by rwa [hempty hscr], ?_⟩
    cases hctx : env.main.ended with
    | some err =>
      rw [h.errorMessage_of_script ((hempty hscr).trans hctx)]
      exact mask_ne_empty (hended err hctx)
    | none =>
      refine h.errorMessage_of_upload ((hempty hscr).trans hctx) ?_
      simpa [hctx] using hfail

def packageRequest : TaskRequest where
  userID := "user"
  organizationID := "org"
  jobRequestID := "1"
  jobType := "release"
  taskType := "package"
  vars := []
  executorOpts := { method := .shell, dependentArtifactIDs := ["binaries"] }
  script := ["tar cf release.tar bin"]

def lostArtifact : Surroundings where
  download := { artifactError := some "artifact not found" }

theorem missing_inputs_lostArtifact :
    InputsFail packageRequest lostArtifact ∧ (startedMain packageRequest lostArtifact = [] ∧
          (execute packageRequest lostArtifact).status = failed ∧
          (execute packageRequest lostArtifact).errorMessage ≠ "" ↔
        packageRequest.script = [] ∧
          (lostArtifact.main.ended.isSome ∨ (uploadError packageRequest lostArtifact).isSome)) := by
  have hfail : InputsFail packageRequest lostArtifact :=
    ⟨rfl, by decide, rfl, by decide, .inl rfl⟩
  exact ⟨hfail, (missing_inputs_spec packageRequest lostArtifact).1 hfail (by simp [lostArtifact])⟩

theorem packages_without_binaries : InputsFail packageRequest lostArtifact ∧
      startedMain packageRequest lostArtifact = ["tar cf release.tar bin"] ∧
      (execute packageRequest lostArtifact).status = completed ∧
      (execute packageRequest lostArtifact).errorMessage = "artifact not found" :=
  ⟨⟨rfl, by decide, rfl, by decide, .inl rfl⟩, by decide, by decide, by decide⟩

end Formicary.Ant

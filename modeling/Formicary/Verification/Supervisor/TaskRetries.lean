import Formicary.Verification.Supervisor.Machine
import Formicary.Verification.Supervisor.TaskEnds

/-! # How often a task is sent, and the error that is left

The loop of `tryExecuteTask` counts the replies that only report progress together with the
failures, and the error of an invocation does not leave it. -/

namespace Formicary

open RequestState

namespace TaskResponse

variable (resp : TaskResponse)

/-- The task has neither ended well nor goes on. -/
def Failure : Prop :=
  resp.status ≠ completed ∧ resp.status ≠ manualApprovalRequired ∧ resp.status ≠ paused ∧
    resp.status ≠ executing

instance : Decidable resp.Failure :=
  inferInstanceAs (Decidable (_ ∧ _ ∧ _ ∧ _))

def Retriable : Prop :=
  resp.Failure ∧ resp.status ≠ fatal

def retryTaskCount : ℤ :=
  match resp.matched with
  | some code => if code.action = .retryTask then code.retry else 0
  | none => 0

end TaskResponse

namespace TaskSupervisor

variable (td : TaskDefinition)

/-- How often `tryExecuteTask` sends its request. The invocation past the last reply fails. -/
def sends (p : Progress) (retried : ℤ) : List Reply → ℕ
  | [] => 1
  | reply :: replies =>
    let resp := invoke td reply
    let next := updateTaskFromResponse p resp
    if resp.status ≠ executing ∧ (next.err.isNone ∨ retried ≥ td.retry ∨ resp.status = fatal) then 1
    else if canRetry td next.errorCode (retried + 1) ∨ resp.status = executing then
      sends next (retried + 1) replies + 1
    else 1

/-- How often the request is due, after as many failures: only a failure uses up a retry. -/
def dueSends (failures : ℤ) : List Reply → ℕ
  | [] => 1
  | reply :: replies =>
    let resp := invoke td reply
    if resp.status = executing then dueSends failures replies + 1
    else if resp.Failure ∧ resp.status ≠ fatal ∧ failures < max td.retry resp.retryTaskCount then
      dueSends (failures + 1) replies + 1
    else 1

/-- A failed reply ends the loop: before it come as many replies as there are retries, polls or
failures, and then polls only. -/
structure Ends (n : ℕ) (before : List TaskResponse) (resp : TaskResponse) : Prop where
  failed : resp.Retriable
  used : n ≤ before.length
  first : ∀ r ∈ before.take n, r.status = executing ∨ r.Retriable
  polls : ∀ r ∈ before.drop n, r.status = executing

/-- The failures among the first replies, with those before, use up the retries that the
definition and the error code of the last reply grant. -/
def UsesUp (td : TaskDefinition) (failures : ℤ) (n : ℕ) (responses : List TaskResponse) : Prop :=
  ∀ before resp rest, responses = before ++ resp :: rest → Ends n before resp →
    max td.retry resp.retryTaskCount ≤
      failures + (before.take n).countP fun r => r.status ≠ executing

def SendsAgain (retried : ℤ) (resp : TaskResponse) : Prop :=
  resp.status = executing ∨ resp.Failure ∧ resp.status ≠ fatal ∧ retried < td.retry

instance (retried : ℤ) (resp : TaskResponse) : Decidable (SendsAgain td retried resp) :=
  inferInstanceAs (Decidable (_ ∨ _))

variable {td} {p : Progress} {resp r : TaskResponse} {retried failures : ℤ} {reply : Reply}
  {replies : List Reply} {n : ℕ} {before : List TaskResponse}

theorem updateTaskFromResponse_err : (updateTaskFromResponse p resp).err = none ↔
      resp.status = completed ∨ resp.status = manualApprovalRequired ∨ resp.status = paused := by
  unfold updateTaskFromResponse
  split
  · next hdone => simp [hdone]
  split
  · next hwaits => simp [hwaits]
  · next hdone hwaits => simpa [hdone] using hwaits

theorem again_iff : ¬ (resp.status ≠ executing ∧ ((updateTaskFromResponse p resp).err.isNone ∨
        retried ≥ td.retry ∨ resp.status = fatal)) ∧
      (canRetry td (updateTaskFromResponse p resp).errorCode (retried + 1) ∨
        resp.status = executing) ↔ SendsAgain td retried resp := by
  have hretry : retried < td.retry →
      canRetry td (updateTaskFromResponse p resp).errorCode (retried + 1) = true := by
    intro hlt
    simp [canRetry, hlt]
  rw [Option.isNone_iff_eq_none, updateTaskFromResponse_err, SendsAgain, TaskResponse.Failure]
  by_cases hexec : resp.status = executing
  · simp [hexec]
  simp only [hexec, ne_eq, not_false_eq_true, true_and, or_false, and_true, false_or]
  constructor
  · rintro ⟨hgoes, -⟩
    push Not at hgoes
    exact ⟨hgoes.1, hgoes.2.2, hgoes.2.1⟩
  · rintro ⟨hfails, hfatal, hlt⟩
    exact ⟨by simp [hfails, hfatal, hlt], hretry hlt⟩

theorem ite_again {α : Type*} (again stop : α) :
    (if resp.status ≠ executing ∧ ((updateTaskFromResponse p resp).err.isNone ∨
        retried ≥ td.retry ∨ resp.status = fatal) then stop
      else if canRetry td (updateTaskFromResponse p resp).errorCode (retried + 1) ∨
        resp.status = executing then again
      else stop) = if SendsAgain td retried resp then again else stop := by
  by_cases hagain : SendsAgain td retried resp
  · obtain ⟨hgoes, hcan⟩ := again_iff.mpr hagain
    rw [if_neg hgoes, if_pos hcan, if_pos hagain]
  split
  · rfl
  next hgoes =>
  rw [if_neg fun hcan => hagain (again_iff.mp ⟨hgoes, hcan⟩)]

theorem sends_cons : sends td p retried (reply :: replies) =
      if SendsAgain td retried (invoke td reply) then
        sends td (updateTaskFromResponse p (invoke td reply)) (retried + 1) replies + 1
      else 1 :=
  ite_again _ _

theorem dueSends_pos : 0 < dueSends td failures replies := by
  cases replies with
  | nil => simp [dueSends]
  | cons =>
    simp only [dueSends]
    split
    · simp
    · split <;> simp

theorem ends_nil : Ends n [] resp ↔ resp.Retriable ∧ n = 0 :=
  ⟨fun h => ⟨h.failed, by simpa using h.used⟩, fun h => ⟨h.1, by simp [h.2], by simp, by simp⟩⟩

theorem ends_zero_cons : Ends 0 (r :: before) resp ↔ r.status = executing ∧ Ends 0 before resp := by
  constructor
  · rintro ⟨hf, -, -, hp⟩
    exact ⟨hp r (by simp), hf, by simp, by simp, fun r hr => hp r (by simp_all)⟩
  · rintro ⟨hr, hf, -, -, hp⟩
    exact ⟨hf, by simp, by simp, by simpa [hr] using hp⟩

theorem ends_succ_cons : Ends (n + 1) (r :: before) resp ↔
    (r.status = executing ∨ r.Retriable) ∧ Ends n before resp := by
  constructor
  · rintro ⟨hf, hu, hi, hp⟩
    rw [List.take_succ_cons, List.forall_mem_cons] at hi
    exact ⟨hi.1, hf, by simpa using hu, hi.2, hp⟩
  · rintro ⟨hr, hf, hu, hi, hp⟩
    exact ⟨hf, by simpa using hu, List.forall_mem_cons.mpr ⟨hr, hi⟩, hp⟩

theorem usesUp_cons {l : List TaskResponse} : UsesUp td failures n (r :: l) ↔
    (r.status = executing → UsesUp td failures (n - 1) l) ∧
    (r.Retriable → if n = 0 then max td.retry r.retryTaskCount ≤ failures
      else UsesUp td (failures + 1) (n - 1) l) := by
  -- the failed reply is the first one, or one of the rest
  have hsplit : UsesUp td failures n (r :: l) ↔
      (Ends n [] r → max td.retry r.retryTaskCount ≤ failures) ∧
      ∀ before resp rest, l = before ++ resp :: rest → Ends n (r :: before) resp →
        max td.retry resp.retryTaskCount ≤
          failures + ((r :: before).take n).countP fun r => r.status ≠ executing := by
    constructor
    · intro h
      exact ⟨fun he => by simpa using h [] r l rfl he,
        fun before resp rest hl => h (r :: before) resp rest (congrArg (r :: ·) hl)⟩
    · rintro ⟨hnil, hcons⟩ before resp rest hl he
      cases before with
      | nil =>
        cases hl
        simpa using hnil he
      | cons =>
        cases hl
        exact hcons _ resp rest rfl he
  have hnot : r.Retriable → r.status ≠ executing := fun h => h.1.2.2.2
  rw [hsplit, ends_nil]
  cases n with
  | zero =>
    simp only [ends_zero_cons, UsesUp, and_true, if_true]
    rw [and_comm]
    refine and_congr_left fun _ => ⟨?_, ?_⟩
    · exact fun h hexec before resp rest hl he => h before resp rest hl ⟨hexec, he⟩
    · exact fun h before resp rest hl he => h he.1 before resp rest hl he.2
  | succ n =>
    simp only [ends_succ_cons, List.take_succ_cons, List.countP_cons, UsesUp]
    by_cases hexec : r.status = executing
    · simp [hexec, mt hnot (not_not.mpr hexec)]
    · by_cases hretry : r.Retriable
      · simp [hexec, hretry, ← add_assoc, add_right_comm failures]
      · simp [hexec, hretry]

theorem sends_eq_iff_usesUp (h : failures ≤ retried) :
    sends td p retried replies = dueSends td failures replies ↔
      UsesUp td failures (td.retry - retried).toNat (replies.map (invoke td)) := by
  induction replies generalizing p failures retried with
  | nil => simp [sends, dueSends, UsesUp]
  | cons reply replies ih =>
    have hn : (td.retry - retried).toNat - 1 = (td.retry - (retried + 1)).toNat := by omega
    rw [List.map_cons, usesUp_cons, hn, ← ih (p := updateTaskFromResponse p (invoke td reply))
      (by omega), ← ih (p := updateTaskFromResponse p (invoke td reply)) (by omega)]
    simp only [sends_cons, dueSends, SendsAgain]
    by_cases hexec : (invoke td reply).status = executing
    · simp [hexec, TaskResponse.Retriable, TaskResponse.Failure]
    by_cases hfails : (invoke td reply).Failure ∧ (invoke td reply).status ≠ fatal
    · by_cases hlt : retried < td.retry
      · have hdue : failures < max td.retry (invoke td reply).retryTaskCount := by omega
        have hsub : ¬ td.retry ≤ retried := by omega
        simp [hexec, hfails, hlt, hdue, TaskResponse.Retriable, hsub]
      have hpos : 0 < dueSends td (failures + 1) replies := dueSends_pos
      have hzero : (td.retry - retried).toNat = 0 := by omega
      simp only [hexec, hfails, hlt, hzero, if_false, if_true, and_false, false_or, ne_eq,
        not_false_eq_true, true_and, TaskResponse.Retriable]
      split
      · next hdue => exact iff_of_false (by omega) (by simp; omega)
      · next hdue => exact iff_of_true rfl (by simp; omega)
    · simp [hexec, ← and_assoc, hfails, TaskResponse.Retriable]

/-- A task is sent as often as it is due exactly if a failed reply that ends the loop finds the
retries used up: none of as many first replies only reports progress, and the error code of the
failed one does not grant more of them. -/
theorem sends_eq_due_iff (td : TaskDefinition) (p : Progress) (replies : List Reply) :
    sends td p 0 replies = dueSends td 0 replies ↔ ∀ before resp rest,
      replies.map (invoke td) = before ++ resp :: rest → Ends td.retry.toNat before resp →
        (∀ r ∈ before.take td.retry.toNat, r.status ≠ executing) ∧
          resp.retryTaskCount ≤ td.retry.toNat := by
  rw [sends_eq_iff_usesUp le_rfl, sub_zero]
  refine forall₃_congr fun before resp rest => forall₂_congr fun _ hends => ?_
  have hle := (before.take td.retry.toNat).countP_le_length (p := fun r => r.status ≠ executing)
  have hall := (before.take td.retry.toNat).countP_eq_length (p := fun r => r.status ≠ executing)
  rw [List.length_take_of_le hends.used] at hle hall
  simp only [decide_eq_true_iff] at hall
  rw [← hall]
  omega

/-- A deployment that may be retried once, polled once before it fails. -/
def deployReplies : List Reply :=
  [.response ⟨executing, "", "", "", "", none⟩, .response ⟨failed, "1", "", "", "boom", none⟩]

def deployTask : TaskDefinition :=
  { JobSupervisor.shellTask "deploy" "" with retry := 1 }

def deployProgress : Progress where
  task := JobSupervisor.launched.machine.newTaskExecution deployTask "t1" 0
  errorCode := none
  err := none
  taskType := "deploy"

theorem poll_uses_retry : sends deployTask deployProgress 0 deployReplies = 2 ∧
    dueSends deployTask 0 deployReplies = 3 := by
  decide

/-! ## The error of a task -/

/-- The error that `execute` makes up for a task without a final state. -/
def faultText (ctxErr : Option String) (timeout : String) : String :=
  ctxErr.getD "unknown error executing task" ++ " (timeout=" ++ timeout ++ ")"

/-- The replies that `tryExecuteTask` gets to. -/
def taken (td : TaskDefinition) (p : Progress) (replies : List Reply) : List TaskResponse :=
  (replies.take (sends td p 0 replies)).map (invoke td)

/-- The invocation after the last reply takes place, and fails. -/
def RunsOut (td : TaskDefinition) (p : Progress) (replies : List Reply) : Prop :=
  sends td p 0 replies = replies.length + 1

theorem tryReplies_eq_foldl : tryReplies td p retried replies =
    ((replies.take (sends td p retried replies)).map (invoke td)).foldl
      updateTaskFromResponse p := by
  induction replies generalizing p retried with
  | nil => simp [tryReplies]
  | cons reply replies ih =>
    rw [sends_cons, show tryReplies td p retried (reply :: replies) = _ from ite_again _ _]
    split
    · simpa using ih
    · simp

theorem foldl_updateTaskFromResponse (p : Progress) (responses : List TaskResponse) :
    (responses.foldl updateTaskFromResponse p).task.taskState =
      (responses.getLast?.map TaskResponse.status).getD p.task.taskState := by
  induction responses using List.reverseRecOn with
  | nil => rfl
  | append_singleton => simp

/-- A task that has been saved as EXECUTING. -/
def Progress.started (p : Progress) : Progress :=
  { p with task := { p.task with taskState := executing } }

theorem execute_invoked (hstate : p.task.taskState ≠ completed) (hexc : td.isExcept = false)
    (replies : List Reply) (fault : String) (now : Time) :
    let q := tryReplies td p.started 0 replies
    let r := execute td p (.started (.invoked replies fault)) now
    (q.task.taskState.canFinalize = true → r.err = none ∧
        (q.task.taskState ≠ completed → r.task.errorMessage = q.task.errorMessage)) ∧
      (q.task.taskState.canFinalize = false → r.err = some fault ∧
        r.task.errorMessage = fault) := by
  intro q r
  have hr : r = { ensureFinal { q with err := none } fault with
      task := finalizeTaskState (ensureFinal { q with err := none } fault).task now } := by
    simp only [r, q, execute, if_neg hstate, prepareAndTry, tryExecuteTask, hexc,
      Bool.false_eq_true, if_false, TaskRun.fault, Progress.started]
  rw [hr]
  constructor
  · intro hfinal
    simp only [ensureFinal, hfinal, if_true, finalizeTaskState, true_and]
    intro hne
    rw [if_neg hne]
  · intro hfinal
    simp [ensureFinal, hfinal, finalizeTaskState, setFailed]

/-- A failure of the invocation shows only if no final reply came before it, and then as the error
of the context at the end; and a failed reply keeps its message only if its status is final. -/
theorem recorded_error_iff (hstate : p.task.taskState ≠ completed) (hexcept : td.isExcept = false)
    (replies : List Reply) (ctxErr : Option String) (timeout e : String) (now : Time) :
    (∀ run, (execute td p run now).task.taskState.canFinalize = true) ∧
      let r := execute td p (.started (.invoked replies (faultText ctxErr timeout))) now
      (RunsOut td p.started replies → (Text.contains r.task.errorMessage e = true ∧ r.err ≠ none ↔
          (∀ resp ∈ (taken td p.started replies).getLast?, resp.status.canFinalize = false) ∧
            Text.contains (faultText ctxErr timeout) e = true)) ∧
      ∀ resp ∈ (taken td p.started replies).getLast?, resp.Failure →
        (r.task.errorMessage = resp.errorMessage ↔
          resp.status.canFinalize = true ∨ faultText ctxErr timeout = resp.errorMessage) := by
  refine ⟨fun run => execute_canFinalize p run now, ?_⟩
  intro r
  have hq : tryReplies td p.started 0 replies =
      (taken td p.started replies).foldl updateTaskFromResponse p.started := tryReplies_eq_foldl
  obtain ⟨hfinal, hopen⟩ := execute_invoked hstate hexcept replies (faultText ctxErr timeout) now
  rw [hq, foldl_updateTaskFromResponse] at hfinal hopen
  constructor
  · cases hlast : (taken td p.started replies).getLast? with
    | none =>
      rw [hlast] at hopen
      obtain ⟨herr, hmsg⟩ := hopen rfl
      simp [r, herr, hmsg]
    | some resp =>
      rw [hlast] at hfinal hopen
      cases hstat : resp.status.canFinalize with
      | true => simp [r, (hfinal hstat).1, hstat]
      | false =>
        obtain ⟨herr, hmsg⟩ := hopen hstat
        simp [r, herr, hmsg, hstat]
  · intro resp hlast hfails
    obtain ⟨before, htaken⟩ := List.getLast?_eq_some_iff.mp hlast
    rw [hlast] at hfinal hopen
    cases hstat : resp.status.canFinalize with
    | true =>
      have hmsg := (hfinal hstat).2 hfails.1
      rw [htaken, List.foldl_append] at hmsg
      simpa [r, updateTaskFromResponse, hfails.1, hfails.2.1, hfails.2.2.1] using hmsg
    | false => simp [r, (hopen hstat).2]

theorem deploy_timeout_recorded :
    Text.contains (execute deployTask deployProgress (.started (.invoked []
      (faultText (some "context deadline exceeded") "1s/3s"))) 0).task.errorMessage
      "context deadline exceeded" = true :=
  (((recorded_error_iff (by decide) (by decide) [] (some "context deadline exceeded") "1s/3s"
    "context deadline exceeded" 0).2.1 rfl).mpr ⟨by simp [taken], by decide⟩).1

theorem send_error_lost : RunsOut deployTask deployProgress.started [] ∧
      (execute deployTask deployProgress (.started (.invoked [] (faultText none "1s/1s"))) 0
        ).task.errorMessage = "unknown error executing task (timeout=1s/1s)" :=
  ⟨rfl, by decide⟩

end TaskSupervisor

end Formicary

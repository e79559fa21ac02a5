import Formicary.Model.JobManager

/-! # Cascading cancellation

After a request has been cancelled, the requests it has forked with `cascade_cancel` are cancelled,
and theirs, breadth first. -/

namespace Formicary

open RequestState

def JobRequestRepository.findActiveChildRequests (db : Database) (parentID : String) :
    Except Error (List JobRequest) :=
  if parentID = "" then .error ⟨.validation, "parentID is not specified"⟩
  else
    .ok (db.requests.rows.filter fun req =>
      req.parentID == parentID && req.cascadeCancel && !terminalStates.contains req.jobState)

namespace JobManager

/-- What a traversal meets: errors of the query for the children of a request, and cancel events
that cannot be published. -/
structure Surroundings where
  findError : String → Option Error
  published : String → Bool
  now : Time

/-- A traversal: the queue with the depth of its entries, and the requests it has tried to
cancel. -/
structure Cascade where
  manager : JobManager
  visited : List String
  queue : List (String × ℕ)
  attempts : List String

def cascadeCancelBFSMaxDepth : ℕ := 20

variable (env : Surroundings)

/-- The attempt to cancel a child, on behalf of its owner. An error is logged. -/
def cancelChild (m : JobManager) (child : JobRequest) : JobManager :=
  let childQC := QueryContext.newQueryContextFromIDs child.userID child.organizationID
  if child.jobState = pending ∨ child.jobState = paused ∨
      child.jobState = manualApprovalRequired then
    { m with
      db := Lifecycle.commit m.db (JobRequestRepository.cancel m.db childQC child.id env.now) }
  else if env.published child.id then { m with events := (child.id, cancelled) :: m.events }
  else m

def visitChild (depth : ℕ) (s : Cascade) (child : JobRequest) : Cascade :=
  if child.id ∈ s.visited then s
  else
    { manager := cancelChild env s.manager child
      visited := s.visited ++ [child.id]
      queue := s.queue ++ [(child.id, depth + 1)]
      attempts := s.attempts ++ [child.id] }

def cascadeStep (s : Cascade) : Cascade :=
  match s.queue with
  | [] => s
  | (parentID, depth) :: queue =>
    let s := { s with queue := queue }
    if cascadeCancelBFSMaxDepth ≤ depth then s
    else
      match env.findError parentID with
      | some _ => s
      | none =>
        match JobRequestRepository.findActiveChildRequests s.manager.db parentID with
        | .error _ => s
        | .ok children => children.foldl (visitChild env depth) s

def cascadeLoop : ℕ → Cascade → Cascade
  | 0, s => s
  | fuel + 1, s => cascadeLoop fuel (cascadeStep env s)

/-- `cascadeCancelToChildren`. A request comes into the queue once, and the root once more. -/
def cascadeCancelToChildren (m : JobManager) (rootParentID : String) : Cascade :=
  cascadeLoop env (m.db.requests.rows.length + 1) ⟨m, [], [(rootParentID, 0)], []⟩

end JobManager

end Formicary

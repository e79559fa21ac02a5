import Formicary.Library.Transition
import Formicary.Model.Database
import Formicary.Model.QueryContext

/-! # Uses of job resources -/

namespace Formicary

structure JobResourceUse where
  id : String
  jobResourceID : String
  jobRequestID : ℕ
  taskExecutionID : String
  userID : String
  value : ℤ
  active : Bool
  expiresAt : Option Time
  remainingQuota : ℤ := 0
  deriving DecidableEq, Repr

namespace JobResourceUse

variable (use : JobResourceUse)

def string : String :=
  "ResourceID=" ++ use.jobResourceID ++ " JobRequestID=" ++ toString use.jobRequestID ++
    " TaskExecutionID=" ++ use.taskExecutionID ++ " User=" ++ use.userID ++ " Value=" ++
    toString use.value

def validate : Except Error Unit :=
  if use.value = 0 then .error ⟨.validation, "value is not specified"⟩
  else if use.jobResourceID = "" then .error ⟨.validation, "job-resource-id is not specified"⟩
  else if use.jobRequestID = 0 then .error ⟨.validation, "job-request-id is not specified"⟩
  else if use.taskExecutionID = "" then .error ⟨.validation, "task-id is not specified"⟩
  else if use.expiresAt = none then .error ⟨.validation, "expiration is not specified"⟩
  else .ok ()

end JobResourceUse

/-- A job resource, by what allocating reads. -/
structure JobResource where
  id : String
  quota : ℤ

abbrev JobResourceRepository := Table JobResourceUse.id

namespace JobResourceRepository

variable (uses : JobResourceRepository)

def usedQuota (id : String) : ℤ :=
  (uses.rows.map fun use => if use.jobResourceID = id ∧ use.active then use.value else 0).sum

/-- `Allocate`. The transaction is rolled back where it fails; the remaining quota of the result is
not stored. -/
def allocate (resource : JobResource) (use : JobResourceUse) (freshID : String) :
    Except Error (JobResourceRepository × JobResourceUse) := do
  use.validate
  let use := { use with id := freshID, jobResourceID := resource.id, active := true }
  match uses.insert? use with
  | none => throw ⟨.plain, "UNIQUE constraint failed"⟩
  | some uses =>
    let sum := usedQuota uses resource.id
    if sum > resource.quota then
      throw ⟨.plain, "failed to save " ++ use.string ++ " because it exceeded quota " ++
        toString sum⟩
    return (uses, { use with remainingQuota := sum })

def deallocate (id : String) : Except Error JobResourceRepository :=
  match uses.updateOne? (fun use => use.id == id && use.active)
    (fun use => { use with active := false }) (fun _ => rfl) with
  | some uses => .ok uses
  | none => .error ⟨.notFound, "failed to delete resource use with id " ++ id ++ ", rows 0"⟩

inductive Call where
  | allocate (use : JobResourceUse) (freshID : String)
  | deallocate (id : String)

/-- The calls on one resource, one after the other. -/
def system (resource : JobResource) : TransitionSystem JobResourceRepository Call where
  init uses := uses = Table.empty
  step uses
    | .allocate use freshID =>
      some ((uses.allocate resource use freshID).toOption.elim uses Prod.fst)
    | .deallocate id => some ((uses.deallocate id).toOption.getD uses)

end JobResourceRepository

end Formicary

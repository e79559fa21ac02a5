import Formicary.Library.FinMap
import Formicary.Library.Transition
import Formicary.Model.Database
import Formicary.Model.QueryContext

/-! # The artifact manager

An artifact has a record in the database, and its content in an object store that knows nothing of
tenants. -/

namespace Formicary.ArtifactManager

structure Artifact where
  id : String
  userID : String
  organizationID : String
  active : Bool
  expiresAt : Time
  updatedAt : Time
  deriving DecidableEq, Repr

/-- An `ExpireArtifacts` under way: the records of its page that are left, and the pages after. -/
structure Expiry where
  qc : QueryContext
  expiration : Time
  records : List Artifact
  pages : ℕ

structure State where
  artifacts : Table Artifact.id
  /-- the ids under which the object store has content -/
  contents : FinSet String
  expiring : Option Expiry

/-- How the calls of a deletion fail. The object store may have removed the content nevertheless. -/
structure Faults where
  service : Option Error := none
  removed : Bool := false
  database : Option Error := none

def Faults.removes (f : Faults) : Bool :=
  f.service.isNone || f.removed

/-- The rows that `Delete` of the repository updates. -/
def deletable (qc : QueryContext) (id : String) (a : Artifact) : Bool :=
  a.id == id && a.active && qc.orgElseUserWhere false a.userID a.organizationID

def delete (artifacts : Table Artifact.id) (qc : QueryContext) (id : String) (now : Time) :
    Except Error (Table Artifact.id) :=
  match artifacts.updateOne? (deletable qc id)
      (fun a => { a with active := false, updatedAt := now }) (fun _ => rfl) with
  | some artifacts => .ok artifacts
  | none =>
    .error ⟨.notFound, "failed to delete artifact with id " ++ id ++ ", rows " ++
      toString (artifacts.affected (deletable qc id))⟩

def deleteArtifact (s : State) (qc : QueryContext) (id : String) (f : Faults) (now : Time) :
    State × Option Error :=
  let contents := if f.removes then s.contents.erase id else s.contents
  match f.database with
  | some dbErr => ({ s with contents := contents }, f.service.or (some dbErr))
  | none =>
    match delete s.artifacts qc id now with
    | .ok artifacts => ({ s with artifacts := artifacts, contents := contents }, f.service)
    | .error dbErr => ({ s with contents := contents }, f.service.or (some dbErr))

def pageSize : ℕ := 10000

def expiredArtifacts (artifacts : Table Artifact.id) (qc : QueryContext) (expiration now : Time) :
    List Artifact :=
  (artifacts.rows.filter fun a => qc.orgElseUserWhere true a.userID a.organizationID && a.active &&
    decide (a.expiresAt < now - expiration)).take pageSize

inductive Action where
  | deleteArtifact (qc : QueryContext) (id : String) (f : Faults) (now : Time)
  | expireArtifacts (qc : QueryContext) (expiration : Time) (limit : ℕ)
  /-- the expiration reads its next page, or returns -/
  | nextPage (failed : Bool) (now : Time)
  /-- the expiration deletes its next record, and returns if that fails -/
  | nextRecord (f : Faults) (now : Time)

def step (s : State) : Action → Option State
  | .deleteArtifact qc id f now => some (deleteArtifact s qc id f now).1
  | .expireArtifacts qc expiration limit =>
    match s.expiring with
    | none =>
      let pages := (limit + (pageSize - 1)) / pageSize
      some { s with expiring := some ⟨qc, expiration, [], pages⟩ }
    | some _ => none
  | .nextPage failed now =>
    match s.expiring with
    | some ⟨qc, expiration, [], pages + 1⟩ =>
      if failed then some { s with expiring := none }
      else
        let records := expiredArtifacts s.artifacts qc expiration now
        some { s with expiring := some ⟨qc, expiration, records, pages⟩ }
    | some ⟨_, _, [], 0⟩ => some { s with expiring := none }
    | _ => none
  | .nextRecord f now =>
    match s.expiring with
    | some ⟨qc, expiration, record :: records, pages⟩ =>
      match deleteArtifact s qc record.id f now with
      | (s, none) => some { s with expiring := some ⟨qc, expiration, records, pages⟩ }
      | (s, some _) => some { s with expiring := none }
    | _ => none

def system (s₀ : State) : TransitionSystem State Action where
  init s := s = s₀
  step := step

end Formicary.ArtifactManager

import Formicary.Library.Table

/-! # Callers

Roles, users and the query context that scopes every statement to the caller's tenant, together
with the error values the repositories and services return. -/

namespace Formicary

/-- The constructors of `internal/types/errors.go` that the modelled code uses; `plain` is an
error made by `fmt.Errorf` alone. -/
inductive ErrorKind where
  | validation
  | notFound
  | conflict
  | duplicate
  | permission
  | plain
  deriving DecidableEq, Repr

structure Error where
  kind : ErrorKind
  message : String
  deriving DecidableEq, Repr

/-! ## Roles -/

abbrev RoleType := String

namespace RoleType

def admin : RoleType := "Admin"

def readAdmin : RoleType := "ReadAdmin"

end RoleType

structure Role where
  roleType : RoleType
  scope : List String
  deriving DecidableEq, Repr

/-- Every scope of the role is among those asked for; a role without scopes always matches. -/
def Role.matchesScope (role : Role) (scope : List String) : Bool :=
  role.scope.all fun s => scope.contains s

/-- At most one role of each type. -/
abbrev Roles := Table Role.roleType

namespace Roles

def hasRole (roles : Roles) (roleType : RoleType) (scope : List String) : Bool :=
  match roles.find? roleType with
  | none => false
  | some role =>
    -- no scope check for the two administrator roles
    if roleType = RoleType.admin ∨ roleType = RoleType.readAdmin then true
    else role.matchesScope scope

def isAdmin (roles : Roles) : Bool :=
  hasRole roles RoleType.admin []

def isReadAdmin (roles : Roles) : Bool :=
  hasRole roles RoleType.readAdmin [] || hasRole roles RoleType.admin []

end Roles

/-! ## Users and query contexts -/

/-- The fields of a user that scoping and authorization read. `organization` says whether the
organization record is loaded, which is independent of `organizationID`. -/
structure User where
  id : String
  username : String
  organizationID : String
  organization : Bool
  roles : Roles

structure QueryContext where
  userIDColumn : String := "user_id"
  organizationIDColumn : String := "organization_id"
  user : Option User

namespace QueryContext

def newQueryContext (user : Option User) : QueryContext := { user := user }

def newQueryContextFromIDs (userID orgID : String) : QueryContext :=
  newQueryContext (some
    { id := userID, username := "", organizationID := orgID,
      organization := orgID != "", roles := Table.empty })

/-- `WithAdmin`: an administrator who is nobody in particular. -/
def withAdmin (qc : QueryContext) : QueryContext :=
  match qc.user with
  | none => qc
  | some _ =>
    { qc with
      user := some
        { id := "", username := "", organizationID := "", organization := false,
          roles := ⟨[⟨RoleType.admin, []⟩], List.nodup_singleton _⟩ } }

def isAdmin (qc : QueryContext) : Bool :=
  match qc.user with
  | some user => user.roles.isAdmin
  | none => true

def isReadAdmin (qc : QueryContext) : Bool :=
  match qc.user with
  | some user => user.roles.isReadAdmin
  | none => true

def hasOrganization (qc : QueryContext) : Bool :=
  match qc.user with
  | some user => user.organization
  | none => false

def getOrganizationID (qc : QueryContext) : String :=
  match qc.user with
  | some user => user.organizationID
  | none => ""

def getUserID (qc : QueryContext) : String :=
  match qc.user with
  | some user => user.id
  | none => ""

/-- `AddUserWhere`, as the condition it puts on a row's user. -/
def userWhere (qc : QueryContext) (readonly : Bool) (userID : String) : Bool :=
  match qc.user with
  | none => true
  | some user =>
    if qc.isAdmin || qc.userIDColumn == "" || (readonly && qc.isReadAdmin) then true
    else userID == user.id

/-- `AddOrgElseUserWhere`, as the condition it puts on a row's user and organization. -/
def orgElseUserWhere (qc : QueryContext) (readonly : Bool) (userID orgID : String) : Bool :=
  if qc.isAdmin || (readonly && qc.isReadAdmin) then true
  else
    match qc.user with
    | some user =>
      if user.organizationID != "" && qc.organizationIDColumn != "" then
        orgID == user.organizationID
      else qc.userWhere readonly userID
    | none => qc.userWhere readonly userID

/-- The scope that statements written as raw SQL append for callers that are no administrators. -/
def rawScope (qc : QueryContext) (userID orgID : String) : Bool :=
  if qc.isAdmin then true
  else if qc.hasOrganization then orgID == qc.getOrganizationID
  else if qc.getUserID != "" then userID == qc.getUserID
  else true

/-- `Matches`: whether a row with this owner is in the caller's scope. -/
def matchesOwner (qc : QueryContext) (userID orgID : String) (readonly : Bool) : Bool :=
  if qc.isAdmin || (qc.isReadAdmin && readonly) then true
  else
    match qc.user with
    | none => true
    | some user =>
      if user.organizationID != "" then user.organizationID == orgID else user.id == userID

/-! ## Conditions as text -/

/-- What the text of a condition compares with its argument. -/
inductive Operand where
  /-- the literal that makes a condition hold of every row -/
  | one
  | userID
  | organizationID
  deriving DecidableEq, Repr

/-- The text of a condition, under the column names of the context. -/
def Operand.text (qc : QueryContext) : Operand → String
  | .one => "'1' = ?"
  | .userID => qc.userIDColumn ++ " = ?"
  | .organizationID => qc.organizationIDColumn ++ " = ?"

/-- Whether a row satisfies a condition with its argument. -/
def Operand.holds (userID orgID : String) : Operand × String → Bool
  | (.one, arg) => "1" == arg
  | (.userID, arg) => userID == arg
  | (.organizationID, arg) => orgID == arg

def addUserWhereSQL (qc : QueryContext) (readonly : Bool) : Operand × String :=
  match qc.user with
  | none => (.one, "1")
  | some user =>
    if qc.isAdmin || qc.userIDColumn == "" || (readonly && qc.isReadAdmin) then (.one, "1")
    else (.userID, user.id)

def addOrgWhereSQL (qc : QueryContext) (readonly : Bool) : Operand × String :=
  match qc.user with
  | none => (.one, "1")
  | some user =>
    if qc.isAdmin || !user.organization || qc.organizationIDColumn == "" ||
        (readonly && qc.isReadAdmin) then (.one, "1")
    else (.organizationID, user.organizationID)

def addOrgUserWhereSQL (qc : QueryContext) (readonly : Bool) : Operand × String :=
  if qc.isAdmin || (readonly && qc.isReadAdmin) then (.one, "1")
  else
    match qc.user with
    | some user =>
      if user.organization && qc.organizationIDColumn != "" then qc.addOrgWhereSQL readonly
      else qc.addUserWhereSQL readonly
    | none => qc.addUserWhereSQL readonly

end QueryContext

end Formicary

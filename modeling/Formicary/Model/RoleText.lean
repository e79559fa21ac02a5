import Formicary.Library.Text
import Formicary.Model.QueryContext

/-! # Roles as text

Roles are stored in one column: `Type[scope]`, separated by semicolons. -/

namespace Formicary

/-- `String`, where `%v` prints the scopes with blanks between them. -/
def Role.string (role : Role) : String :=
  role.roleType ++ "[" ++ (" ".intercalate role.scope ++ "]")

/-- `MarshalRoles`. The text of a role is never empty, so that every other one follows a
semicolon. -/
def marshalRoles (roles : List Role) : String :=
  ";".intercalate (roles.map Role.string)

/-- The role of one line of `UnmarshalRoles`. -/
def unmarshalLine (line : String) : Option Role :=
  match Text.split (· == '[') line with
  | [roleType, scopes] =>
    let next := (Text.split (· == ',') scopes).map fun scopeLine =>
      Text.trimSpace (Text.replaceAll scopeLine "]" "")
    some ⟨Text.trimSpace roleType, next.filter (· ≠ "")⟩
  | _ =>
    let roleType := Text.trimSpace line
    if roleType ≠ "" then some ⟨roleType, []⟩ else none

def unmarshalRoles (s : String) : List Role :=
  if s = "" then [] else (Text.split (· == ';') s).filterMap unmarshalLine

namespace Roles

/-- An assignment to the map of roles. -/
def addRole (roles : Roles) (role : Role) : Roles :=
  (roles.insert? role).getD (roles.set role)

def newRoles (str : String) : Roles :=
  (unmarshalRoles str).foldl addRole Table.empty

/-- `MarshalRoles`, which goes over the map in any order. The order is that of the table. -/
def marshalRoles (roles : Roles) : String :=
  Formicary.marshalRoles roles.rows

end Roles

end Formicary

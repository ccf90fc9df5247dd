import AccessRules.Action
import AccessRules.Roles

/-! A directory of sample users and the permissions of its three roles: a member looks after its own
record, a manager also after the records of members and managers, and an admin after everything. -/

namespace AccessRules

namespace Directory

/-- The type of the records. -/
def userType : String := "User"

/-- The roles, in the order in which they are listed. -/
def roles : List String := ["member", "manager", "admin"]

/-- The actions, in the order in which they are listed. -/
def actions : List Action := [.create, .read, .update, .delete, .execute]

/-- A user of the directory. -/
structure User where
  /-- The name, which says the role. -/
  label : String
  id : String
  role : String

namespace User

/-- The record of the user. -/
def record (u : User) : Document :=
  [("id", .text u.id), ("name", .text u.label), ("role", .text u.role)]

/-- The user as an actor. -/
def actor (u : User) : Actor := ⟨u.id, some u.label, some u.role, none⟩

end User

/-- The users. -/
def users : List User := [
  ⟨"member", "u-member", "member"⟩,
  ⟨"member other", "u-member-2", "member"⟩,
  ⟨"manager", "u-manager", "manager"⟩,
  ⟨"manager other", "u-manager-2", "manager"⟩,
  ⟨"admin", "u-admin", "admin"⟩,
  ⟨"admin other", "u-admin-2", "admin"⟩]

/-- The first user of a role. -/
def withRole? (role : String) : Option User := users.find? (·.role == role)

/-- The user of a label. -/
def labelled? (label : String) : Option User := users.find? (·.label == label)

/-- What a member may do: create members, and read, update and run its own record. -/
def member : Handler := fun u =>
  let own : Value := .object [("id", .text u.id)]
  [.canWhen Action.create.name userType (.object [("role", .text "member")]),
    .canWhen Action.read.name userType own,
    .canWhen Action.update.name userType own,
    .canWhen Action.execute.name userType own]

/-- What a manager may do: what a member may, create managers, and read, update and delete the
records of both. -/
def manager : Handler := fun _ =>
  let managed : Value :=
    .object [("role", .object [("$in", .list [.text "member", .text "manager"])])]
  [.extend "member",
    .canWhen Action.create.name userType (.object [("role", .text "manager")]),
    .canWhen Action.read.name userType managed,
    .canWhen Action.update.name userType managed,
    .canWhen Action.delete.name userType managed]

/-- What an admin may do: everything. -/
def admin : Handler := fun _ => [.can AccessRules.manage everyType]

/-- The permissions of the directory. -/
def permissions : Permissions :=
  ((Permissions.empty.withRole "member" member).withRole "manager" manager).withRole "admin" admin

/-- The ability of the first user of a role. -/
def abilityOf? (role : String) (skipConditions : Bool) : Option Ability :=
  (withRole? role).map fun u => buildAbility u.actor [permissions] skipConditions

end Directory

end AccessRules

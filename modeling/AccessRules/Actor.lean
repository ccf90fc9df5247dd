import AccessRules.Value.Part

/-! Actors: the users for whom rules are built. The roles of an actor are its list of roles, or its
one role if it has no list. -/

namespace AccessRules

/-- A user with its roles. -/
structure Actor where
  id : String
  name : Option String
  role : Option String
  roles : Option (List String)
  deriving DecidableEq

namespace Actor

/-- The actor of an id, without roles. -/
def ofId (id : String) : Actor := ⟨id, none, none, none⟩

/-- The roles that count: the list hides the single role, even when it is empty. -/
def effectiveRoles (u : Actor) : List String :=
  match u.roles, u.role with
  | some roles, _ => roles
  | none, some role => [role]
  | none, none => []

/-- Whether a role counts for the actor. -/
def hasRole (u : Actor) (role : String) : Bool := u.effectiveRoles.contains role

/-- The name, or the id of an actor without one. -/
def displayName (u : Actor) : String := u.name.getD u.id

/-- The actor as an object; what it lacks is left out. -/
def toValue (u : Actor) : Value :=
  .object <|
    [("id", .text u.id)]
    ++ Value.present "name" (u.name.map .text)
    ++ Value.present "role" (u.role.map .text)
    ++ Value.present "roles" (u.roles.map fun roles => .list (roles.map .text))

/-- An actor from its parts. -/
def ofParts? (id name role roles : Option Value) : Option Actor := do
  return {
    id := ← Value.text? id
    name := ← Value.optionalText? name
    role := ← Value.optionalText? role
    roles := ← Value.optionalTexts? roles }

/-- Reads an actor: an object, in which other keys are ignored, or a list of the parts in order, of
which all but the first may be left out. -/
def ofValue? : Value → Option Actor
  | .object d =>
    let part := Document.get? d
    ofParts? (part "id") (part "name") (part "role") (part "roles")
  | .list parts =>
    if parts.length ≤ 4 then ofParts? parts[0]? parts[1]? parts[2]? parts[3]? else none
  | _ => none

end Actor

end AccessRules

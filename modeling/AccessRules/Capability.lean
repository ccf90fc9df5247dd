import AccessRules.Actor
import AccessRules.Filter

/-! Capabilities: what an endpoint may ask about the actor once a request has been decided. A
superuser may do everything, and nothing is kept from it. -/

namespace AccessRules

/-- An actor with what it may do. -/
inductive Capability where
  /-- The actor may do what the rules allow. -/
  | ruled (user : Actor) (ability : Ability)
  | superuser (user : Actor)

namespace Capability

/-- The actor. -/
def user : Capability → Actor
  | ruled user _ => user
  | superuser user => user

/-- Whether the rules are bypassed. -/
def isSuperuser : Capability → Bool
  | ruled _ _ => false
  | superuser _ => true

/-- Whether the actor may do the action on the subject. -/
def can (c : Capability) (action : String) (subject : Subject) : Bool :=
  match c with
  | ruled _ ability => ability.can action subject
  | superuser _ => true

/-- Whether the actor may not do the action on the subject. -/
def cannot (c : Capability) (action : String) (subject : Subject) : Bool := !c.can action subject

/-- The query of an action on a type; none when no rule is about it. -/
def query? (c : Capability) (action type : String) : Option Query :=
  match c with
  | ruled _ ability => ability.query? action type
  | superuser _ => some (Query.unrestricted action type)

end Capability

end AccessRules

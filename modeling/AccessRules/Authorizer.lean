import AccessRules.Authorization
import AccessRules.Config
import AccessRules.Resolver
import AccessRules.Roles

/-! Deciding requests. A policy says what an endpoint asks of the access to it, and the registry
where the permissions come from for one that names none. Without an actor nothing is allowed, and to
a superuser everything is. For any other actor the rules are built and asked about the type of
subject; only when that does not settle the matter is the first subject of the request searched
for. -/

namespace AccessRules

/-! ### Policies -/

/-- The access to an endpoint. -/
structure Policy where
  /-- The action of the endpoint; without one, the configured default. -/
  action : Option String
  /-- The type of subject. -/
  subject : String
  /-- How the subjects of a request are found; the first is the one that the decision is about. -/
  resolvers : List (String × Resolver)
  /-- The endpoint's own sources of permissions. -/
  sources : Option (List Permissions)

/-- The sources of permissions that all endpoints share. -/
structure Registry where
  sources : List Permissions
  /-- Sources that stand in for the shared ones. -/
  current : Option (List Permissions)

namespace Registry

/-- The sources for a policy: its own, or else those that stand in, or else the shared ones. -/
def sourcesFor (r : Registry) (policy : Policy) : List Permissions :=
  (policy.sources <|> r.current).getD r.sources

end Registry

/-! ### Decisions -/

/-- How an actor is found; there may be none. -/
abbrev ActorSearch := Request → Except ResolveError (Option Actor)

/-- The search that takes the authenticated actor of the request. -/
def authenticated : ActorSearch := fun request => .ok request.actor

/-- Decides requests. -/
structure Authorizer where
  config : Config
  registry : Registry
  services : Services
  findActor : ActorSearch

/-- A request that could not be decided. -/
structure Undecided where
  cause : AccessError
  /-- The names of the subjects that were searched for. -/
  searched : List String

/-- The reason of the rule that decides a check, if it is one that denies. -/
def Ability.denyReason (a : Ability) (action : String) (subject : Subject) : Option String :=
  match a.decidingRule? action subject with
  | some r => if r.effect = .deny then r.reason else none
  | none => none

/-- The decision on a check whose subject is known. -/
def Ability.ruling (a : Ability) (basis : Basis) (action : String) (subject : Subject) : Ruling :=
  ⟨basis, a.can action subject, a.denyReason action subject⟩

namespace Authorizer

/-- The ability of an actor under a policy; nobody is a superuser here. -/
def abilityFor (z : Authorizer) (u : Actor) (policy : Policy) : Ability :=
  buildAbility u (z.registry.sourcesFor policy) z.config.skipConditions

/-- The action that a policy is about. -/
def actionOf (z : Authorizer) (policy : Policy) : String :=
  policy.action.getD z.config.defaultAction

/-- The decision when the type of subject does not settle it, by what was found of the subject. -/
def ruleFound (z : Authorizer) (ability : Ability) (action type : String) :
    Option Value → Ruling
  | some v => ability.ruling .item action (.ofValue type v)
  | none => ⟨.unresolved, !z.config.abstainWithoutItem, none⟩

/-- The decision by the rules of an actor, and the subjects after it. -/
def ruleWith (z : Authorizer) (ability : Ability) (action type : String) (subjects : Subjects) :
    Except AccessError Ruling × Subjects :=
  match ability.verdict action type with
  | .noRules => (.ok ⟨.noRules, false, none⟩, subjects)
  | .settled allowed =>
    (.ok ⟨.typeLevel, allowed, ability.denyReason action (.bare type)⟩, subjects)
  | .needsItem =>
    let (found, subjects) := subjects.primary
    (found.map (z.ruleFound ability action type), subjects)

/-- Decides a request for an actor. -/
def authorizeActor (z : Authorizer) (u : Actor) (request : Request) (policy : Policy) :
    Except Undecided Authorization :=
  let action := z.actionOf policy
  let subjects := Subjects.fresh ⟨request, z.services, u⟩ policy.resolvers
  if z.config.isSuperuser u then
    .ok ⟨action, policy.subject, ⟨.superuser, true, none⟩,
      some (Query.unrestricted action policy.subject), some ⟨.superuser u, subjects⟩⟩
  else
    let ability := z.abilityFor u policy
    match z.ruleWith ability action policy.subject subjects with
    | (.error cause, subjects) => .error ⟨cause, subjects.searched⟩
    | (.ok ruling, subjects) =>
      .ok ⟨action, policy.subject, ruling, ability.query? action policy.subject,
        some ⟨.ruled u ability, subjects⟩⟩

/-- Decides a request. -/
def authorize (z : Authorizer) (request : Request) (policy : Policy) :
    Except Undecided Authorization :=
  match z.findActor request with
  | .error cause => .error ⟨.actorResolution cause, []⟩
  | .ok none => .ok (.anonymous (z.actionOf policy) policy.subject)
  | .ok (some u) => z.authorizeActor u request policy

end Authorizer

end AccessRules

import AccessRules.Capability
import AccessRules.Subjects

/-! Authorizations: what has been decided about a request, and on what basis. The endpoint goes on
to ask the capability of the actor and the subjects of the request. -/

namespace AccessRules

/-- What a decision rests on. -/
inductive Basis where
  | noActor
  | superuser
  /-- No rule is about the action and type. -/
  | noRules
  /-- The type of subject alone. -/
  | typeLevel
  /-- The subject that was found. -/
  | item
  /-- A subject was needed, but none was found. -/
  | unresolved
  deriving DecidableEq

/-- A decision. -/
structure Ruling where
  basis : Basis
  allowed : Bool
  /-- The reason of the rule that denied. -/
  reason : Option String
  deriving DecidableEq

/-- What an endpoint can go on with where there is an actor. -/
structure Session where
  capability : Capability
  subjects : Subjects

/-- What has been decided about a request. -/
structure Authorization where
  action : String
  /-- The type of subject. -/
  subject : String
  ruling : Ruling
  /-- What the rules about the action and type amount to. -/
  query : Option Query
  session : Option Session

namespace Authorization

/-- The authorization of a request without an actor. -/
def anonymous (action subject : String) : Authorization :=
  ⟨action, subject, ⟨.noActor, false, none⟩, none, none⟩

/-- The authorization with the subjects in a later state. -/
def withSubjects (a : Authorization) (subjects : Subjects) : Authorization :=
  { a with session := a.session.map fun s => { s with subjects } }

/-- The names of the subjects that have been searched for. -/
def searched (a : Authorization) : List String :=
  match a.session with
  | some s => s.subjects.searched
  | none => []

/-- Asks the subjects; without an actor nothing is found. -/
def ask (a : Authorization) (question : Subjects → Found × Subjects) : Found × Authorization :=
  match a.session with
  | some s =>
    let (found, subjects) := question s.subjects
    (found, a.withSubjects subjects)
  | none => (.ok none, a)

/-- The first subject. -/
def getSubject (a : Authorization) : Found × Authorization := a.ask Subjects.primary

/-- The subject of a name. -/
def subjectNamed (a : Authorization) (name : String) : Found × Authorization :=
  a.ask (·.get name)

/-- Fails unless the request is allowed. -/
def ensureAllowed (a : Authorization) : Except AccessError Unit :=
  if a.ruling.allowed then .ok ()
  else .error (.notAllowed a.action a.subject a.ruling.reason)

end Authorization

end AccessRules

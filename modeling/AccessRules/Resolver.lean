import AccessRules.Request

/-! Resolvers: how the subject of a request is found. A search may come back with nothing, which is
no failure. -/

namespace AccessRules

/-- Why an actor or a subject could not be searched for. -/
inductive ResolveError where
  | service (cause : ServiceError)
  | database (text : String)
  | serialization (text : String)
  | other (text : String)
  deriving DecidableEq

/-- What is said of a search that failed. -/
def ResolveError.message : ResolveError → String
  | service cause => cause.message
  | database text => "database error: " ++ text
  | serialization text => "serialization error: " ++ text
  | other text => text

/-- What a request runs into when it is decided or looks at its subjects. -/
inductive AccessError where
  | actorResolution (cause : ResolveError)
  | subjectResolution (name : String) (cause : ResolveError)
  | notAllowed (action subject : String) (reason : Option String)
  deriving DecidableEq

/-- What is said of the error. -/
def AccessError.message : AccessError → String
  | actorResolution cause => "failed to resolve actor: " ++ cause.message
  | subjectResolution name cause =>
    "failed to resolve subject '" ++ name ++ "': " ++ cause.message
  | notAllowed action subject reason =>
    "not allowed to " ++ action ++ " " ++ subject ++
      (match reason with
        | some reason => ": " ++ reason
        | none => "")

/-- What a search comes back with. -/
abbrev Outcome := Except ResolveError (Option Value)

/-- A way to find a subject. A search need not come back with the same each time, so what it comes
back with may depend on how many resolvers of the request have run before. -/
inductive Resolver where
  | direct (search : Context → Nat → Outcome)
  /-- Searches a service of a kind. -/
  | through (key kind : String) (search : Service → Context → Nat → Outcome)

namespace Resolver

/-- A search that always comes back with the same. -/
def plain (search : Context → Outcome) : Resolver := direct fun c _ => search c

/-- A search of a service that always comes back with the same. -/
def backed (key kind : String) (search : Service → Context → Outcome) : Resolver :=
  through key kind fun service c _ => search service c

/-- The resolver's own search, which cannot start without the service it needs. -/
def start (r : Resolver) (c : Context) (earlier : Nat) : Except ServiceError Outcome :=
  match r with
  | direct search => .ok (search c earlier)
  | through key kind search => (c.services.get key kind).map (search · c earlier)

/-- What the resolver comes back with when some number of resolvers have run before. -/
def outcome (r : Resolver) (c : Context) (earlier : Nat) : Outcome :=
  match r.start c earlier with
  | .ok outcome => outcome
  | .error cause => .error (.service cause)

/-- Whether the resolver's own search can start. -/
def starts (r : Resolver) (c : Context) : Bool :=
  match r with
  | direct _ => true
  | through key kind _ => (c.services.get key kind).isOk

end Resolver

end AccessRules

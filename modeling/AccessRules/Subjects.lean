import AccessRules.Resolver

/-! The subjects of a request. Each has a name and a resolver that runs when the subject is first
asked for; what it came back with, a failure too, is kept and is the answer from then on. -/

namespace AccessRules

/-- A subject of a request. -/
structure SubjectEntry where
  name : String
  resolver : Resolver
  /-- What the resolver came back with, once it has run. -/
  outcome : Option Outcome

/-- What is found of a subject: nothing at all, or a value, which may be null. -/
abbrev Found := Except AccessError (Option Value)

/-- What an outcome says of the subject with a name. -/
def Outcome.found (name : String) : Outcome → Found
  | .ok value => .ok value
  | .error cause => .error (.subjectResolution name cause)

/-- The subjects of a request. -/
structure Subjects where
  context : Context
  /-- In the order of registration. -/
  entries : List SubjectEntry
  /-- The places of the subjects whose resolvers have run, in the order of the runs. -/
  runs : List Nat

namespace Subjects

/-- The name by which the first subject goes as well. -/
def primaryName : String := "subject"

/-- The subjects before any has been asked for. -/
def fresh (context : Context) (resolvers : List (String × Resolver)) : Subjects :=
  ⟨context, resolvers.map fun (name, resolver) => ⟨name, resolver, none⟩, []⟩

/-- Whether there are no subjects. -/
def isEmpty (s : Subjects) : Bool := s.entries.isEmpty

/-- The names of the subjects in the order of registration. -/
def names (s : Subjects) : List String := s.entries.map (·.name)

/-- The names of the subjects whose search has started, in the order of the searches. A resolver
that lacks the service it needs runs without a search. -/
def searched (s : Subjects) : List String :=
  s.runs.filterMap fun place => do
    let entry ← s.entries[place]?
    if entry.resolver.starts s.context then some entry.name else none

/-- The place of the subject that a name stands for: the first of the name, or else the first of all
if it is asked for as such. -/
def place? (s : Subjects) (name : String) : Option Nat :=
  match s.names.idxOf? name with
  | some place => some place
  | none => if name == primaryName then some 0 else none

/-- The subject at a place, or nothing past the last, and the subjects after its resolver has run,
if it had not yet. -/
def getAt (s : Subjects) (place : Nat) : Found × Subjects :=
  match s.entries[place]? with
  | none => (.ok none, s)
  | some entry =>
    match entry.outcome with
    | some outcome => (outcome.found entry.name, s)
    | none =>
      let outcome := entry.resolver.outcome s.context s.runs.length
      (outcome.found entry.name,
        { s with
          entries := s.entries.set place { entry with outcome := some outcome }
          runs := s.runs ++ [place] })

/-- The subject of a name; nothing for a name that stands for none. -/
def get (s : Subjects) (name : String) : Found × Subjects :=
  match s.place? name with
  | some place => s.getAt place
  | none => (.ok none, s)

/-- The first subject. -/
def primary (s : Subjects) : Found × Subjects := s.getAt 0

/-- Whether the resolver of the subject that a name stands for has run. -/
def isResolved (s : Subjects) (name : String) : Bool :=
  ((s.place? name).bind (s.entries[·]?)).any (·.outcome.isSome)

/-- Asks for the subjects at some places until one fails. -/
def resolveAt : List Nat → Subjects → Except AccessError Unit × Subjects
  | [], s => (.ok (), s)
  | place :: rest, s =>
    match s.getAt place with
    | (.ok _, s) => resolveAt rest s
    | (.error e, s) => (.error e, s)

/-- Asks for all subjects in the order of registration until one fails. -/
def resolveAll (s : Subjects) : Except AccessError Unit × Subjects :=
  resolveAt (List.range s.entries.length) s

/-- The subjects as listings show them. -/
def describe (s : Subjects) : String :=
  "ResolvedSubjects \x7b names: " ++ Text.quotedList s.names ++ " \x7d"

end Subjects

end AccessRules

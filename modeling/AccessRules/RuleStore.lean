import AccessRules.Ability

/-! A store of rules with an index by the type of subject that they name. The bucket of a type holds
the places of its rules in the order of registration. A lookup joins the bucket of the type and that
of every type and takes their places newest first, each of them once. -/

namespace AccessRules

/-- Rules with the places of those that name a type. -/
structure RuleStore where
  /-- In the order of registration. -/
  rules : List Rule
  buckets : List (String × List Nat)

namespace RuleStore

/-- The buckets with one more place under a type, after the places that it has. -/
def addPlace (type : String) (place : Nat) : List (String × List Nat) → List (String × List Nat)
  | [] => [(type, [place])]
  | (t, places) :: rest =>
    if type == t then (t, places ++ [place]) :: rest else (t, places) :: addPlace type place rest

/-- The store of some rules. -/
def ofRules (rules : List Rule) : RuleStore :=
  ⟨rules, rules.zipIdx.foldl (fun buckets entry => addPlace entry.1.subject entry.2 buckets) []⟩

/-- The places of the rules that name a type, oldest first. -/
def bucket (s : RuleStore) (type : String) : List Nat := (s.buckets.lookup type).getD []

/-- The places of the rules about a type, newest first. The bucket of every type is joined to itself
where the lookup is for that type, so each of its places comes twice before repetitions go. -/
def places (s : RuleStore) (type : String) : List Nat :=
  ((s.bucket type ++ s.bucket everyType).mergeSort fun i j => j ≤ i).eraseReps

/-- The rules about a type, newest first, with their places. -/
def concerning (s : RuleStore) (type : String) : List (Rule × Nat) :=
  (s.places type).filterMap fun place => s.rules[place]?.map (·, place)

/-- The rules about an action on a type, newest first, with their places. -/
def applicable (s : RuleStore) (action type : String) : List (Rule × Nat) :=
  (s.concerning type).filter fun entry => entry.1.appliesTo action type

end RuleStore

/-- The store of the actor's rules. -/
def Ability.store (a : Ability) : RuleStore := .ofRules a.rules

end AccessRules

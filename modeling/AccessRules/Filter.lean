import AccessRules.Ability

/-! Filters: the rules about one action on one type as a restriction on the subjects of the type.
The rules are read newest first. A conditioned rule that allows adds an alternative and one that
denies an exception; the first rule without a condition ends the reading, and if it allows, the
alternatives give way to no restriction but the exceptions. An exception counts also against grants
newer than it, so a filter may admit less than the rules allow, but never more. -/

namespace AccessRules

/-- A restriction on the subjects of a type. -/
inductive Filter where
  /-- No subject is admitted. -/
  | forbidden
  /-- Subjects are admitted by some formula of `allow`, or by all means without such a list, unless
  some formula of `deny` excepts them. -/
  | select (allow : Option (List Formula)) (deny : List Formula)

namespace Filter

/-- Whether the filter has no restriction. -/
def isUnrestricted : Filter → Bool
  | select none [] => true
  | _ => false

/-- Whether the filter admits nothing. -/
def isForbidden : Filter → Bool
  | forbidden => true
  | _ => false

/-- The filter as one formula. -/
def formula : Filter → Formula
  | forbidden => .never
  | select none deny => .conjunction (deny.map .not)
  | select (some allow) deny => .conjunction (.disjunction allow :: deny.map .not)

end Filter

/-- What the rules about an action on a type amount to. -/
structure Query where
  action : String
  subject : String
  filter : Filter
  /-- The condition documents that the filter is made of, newest first. -/
  documents : List Document

namespace Query

/-- The query that admits every subject. -/
def unrestricted (action subject : String) : Query := ⟨action, subject, .select none [], []⟩

/-- The formula that an admitted subject satisfies. -/
def formula (q : Query) : Formula := q.filter.formula

/-- Whether the fields of a subject admit it. -/
def admits (q : Query) (fields : Document) : Bool := q.formula.holds fields

end Query

/-- What is found in rules read newest first, down to the first without a condition. -/
structure Gathered where
  allow : List Formula
  deny : List Formula
  documents : List Document
  /-- Whether that first rule allows. -/
  unrestricted : Bool

namespace Gathered

/-- Reads rules newest first. -/
def ofRules (skipConditions : Bool) : List Rule → Gathered
  | [] => ⟨[], [], [], false⟩
  | r :: rest =>
    match r.activeCondition skipConditions, r.effect with
    | some c, .allow =>
      let g := ofRules skipConditions rest
      { g with allow := c.formula :: g.allow, documents := c.document :: g.documents }
    | some c, .deny =>
      let g := ofRules skipConditions rest
      { g with deny := c.formula :: g.deny, documents := c.document :: g.documents }
    | none, .allow => ⟨[], [], [], true⟩
    | none, .deny => ⟨[], [], [], false⟩

/-- The filter of what was found. -/
def filter (g : Gathered) : Filter :=
  if g.unrestricted then .select none g.deny
  else if g.allow.isEmpty then .forbidden
  else .select (some g.allow) g.deny

end Gathered

namespace Ability

/-- The query of an action on a type; none when no rule is about it. -/
def query? (a : Ability) (action type : String) : Option Query :=
  match a.rulesFor action type with
  | [] => none
  | rules =>
    let g := Gathered.ofRules a.skipConditions rules
    some ⟨action, type, g.filter, g.documents⟩

end Ability

end AccessRules

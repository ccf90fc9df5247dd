import AccessRules.Action
import AccessRules.Condition
import AccessRules.Value.Part

/-! Rules: each allows or denies an action on a type of subject, possibly under a condition and with
a reason. What a check is about is a type of subject, or one subject of the type with its fields. A
rule is stored as an object and read back as it was. -/

namespace AccessRules

/-- A type of subject, or an item of it. -/
inductive Subject where
  | bare (type : String)
  | item (type : String) (fields : Document)

namespace Subject

/-- An object is an item of the type; any other value says nothing beyond the type. -/
def ofValue (type : String) : Value → Subject
  | .object fields => item type fields
  | _ => bare type

/-- The type of the subject. -/
def type : Subject → String
  | bare type => type
  | item type _ => type

/-- The fields, where they are known. -/
def fields? : Subject → Option Document
  | bare _ => none
  | item _ fields => some fields

end Subject

/-- What a rule does to a check that it decides. -/
inductive Effect where
  | allow
  | deny
  deriving DecidableEq

/-- One rule. -/
structure Rule where
  action : String
  subject : String
  effect : Effect
  /-- The condition, whose document may be empty in a rule that was read. -/
  condition : Option Condition
  reason : Option String

namespace Rule

/-- The rule that allows an action on every subject of a type. -/
def allow (action subject : String) : Rule := ⟨action, subject, .allow, none, none⟩

/-- The rule that denies an action on every subject of a type. -/
def deny (action subject : String) : Rule := ⟨action, subject, .deny, none, none⟩

/-- The rule under a condition; an empty one is none. -/
def under (r : Rule) (condition : Document) : Rule :=
  { r with condition := if condition.isEmpty then none else some (.ofDocument condition) }

/-- The rule with a reason. -/
def because (r : Rule) (reason : String) : Rule := { r with reason := some reason }

/-- Whether the rule is about a type of subject. -/
def concerns (r : Rule) (type : String) : Bool := r.subject == type || r.subject == everyType

/-- Whether the rule is about an action on a type of subject. -/
def appliesTo (r : Rule) (action type : String) : Bool :=
  (r.action == action || r.action == manage) && r.concerns type

/-- The condition that counts: none at all where conditions are skipped. -/
def activeCondition (r : Rule) (skipConditions : Bool) : Option Condition :=
  if skipConditions then none else r.condition

/-- Whether the rule decides a check on the subject. A condition needs the subject's fields, so a
rule with one says nothing about a bare type. -/
def decides (r : Rule) (subject : Subject) (skipConditions : Bool) : Bool :=
  match r.activeCondition skipConditions, subject.fields? with
  | none, _ => true
  | some _, none => false
  | some c, some fields => c.formula.holds fields

/-! ### As a value -/

/-- The rule as an object; a condition or reason that it lacks is left out. -/
def toValue (r : Rule) : Value :=
  .object <|
    [("action", .text r.action), ("subject", .text r.subject),
      ("inverted", .bool (r.effect == .deny))]
    ++ Value.present "conditions" (r.condition.map Condition.toValue)
    ++ Value.present "reason" (r.reason.map .text)

/-- The effect of a rule whose polarity may be left out, but not be null. -/
def effect? : Option Value → Option Effect
  | none => some .allow
  | some (.bool b) => some (if b then .deny else .allow)
  | _ => none

/-- A rule from its parts. -/
def ofParts? (action subject inverted condition reason : Option Value) : Option Rule := do
  return {
    action := ← Value.text? action
    subject := ← Value.text? subject
    effect := ← effect? inverted
    condition := (← Value.optionalObject? condition).map .ofDocument
    reason := ← Value.optionalText? reason }

/-- Reads a rule: an object, in which other keys are ignored, or a list of the parts in order, of
which the last three may be left out. -/
def ofValue? : Value → Option Rule
  | .object d =>
    let part := Document.get? d
    ofParts? (part "action") (part "subject") (part "inverted") (part "conditions") (part "reason")
  | .list parts =>
    if parts.length ≤ 5 then ofParts? parts[0]? parts[1]? parts[2]? parts[3]? parts[4]? else none
  | _ => none

end Rule

end AccessRules

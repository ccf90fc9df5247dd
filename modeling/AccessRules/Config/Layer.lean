import AccessRules.Config
import AccessRules.Value.Part

/-! Layers of the configuration, their merge, and the configuration that results. -/

namespace AccessRules

/-- The options that one layer sets. -/
structure Layer where
  superuserRole : Option String
  skipConditions : Option Bool
  defaultAction : Option String
  placeholder : Option Sql.Placeholder
  abstainWithoutItem : Option Bool
  deriving DecidableEq

namespace Layer

/-- The layer that sets nothing. -/
def empty : Layer := ⟨none, none, none, none, none⟩

/-- The layer with a later one on top of it. -/
def merge (lower upper : Layer) : Layer where
  superuserRole := upper.superuserRole <|> lower.superuserRole
  skipConditions := upper.skipConditions <|> lower.skipConditions
  defaultAction := upper.defaultAction <|> lower.defaultAction
  placeholder := upper.placeholder <|> lower.placeholder
  abstainWithoutItem := upper.abstainWithoutItem <|> lower.abstainWithoutItem

/-- A text that is not empty. -/
def nonempty (text : Option String) : Option String := text.filter fun s => !s.isEmpty

/-- The configuration of the layer over the defaults. An empty role is none, and an empty action
leaves the default. -/
def config (l : Layer) : Config where
  superuserRole := nonempty l.superuserRole
  skipConditions := l.skipConditions.getD Config.default.skipConditions
  defaultAction := (nonempty l.defaultAction).getD Config.default.defaultAction
  placeholder := l.placeholder.getD Config.default.placeholder
  abstainWithoutItem := l.abstainWithoutItem.getD Config.default.abstainWithoutItem

/-! ### As a value -/

/-- The layer as an object, with null for each option that it leaves open. -/
def toValue (l : Layer) : Value :=
  .object [
    ("superuser_role", (l.superuserRole.map .text).getD .null),
    ("skip_conditions", (l.skipConditions.map .bool).getD .null),
    ("default_action", (l.defaultAction.map .text).getD .null),
    ("sql_placeholder", (l.placeholder.map fun p => .text p.name).getD .null),
    ("abstain_without_instance", (l.abstainWithoutItem.map .bool).getD .null)]

/-- A placeholder that may be left out. -/
def placeholder? : Option Value → Option (Option Sql.Placeholder)
  | none => some none
  | some .null => some none
  | some v => (Sql.Placeholder.ofValue? v).map some

/-- A layer from its parts. -/
def ofParts? (superuserRole skipConditions defaultAction placeholder abstain : Option Value) :
    Option Layer := do
  return {
    superuserRole := ← Value.optionalText? superuserRole
    skipConditions := ← Value.optionalBool? skipConditions
    defaultAction := ← Value.optionalText? defaultAction
    placeholder := ← placeholder? placeholder
    abstainWithoutItem := ← Value.optionalBool? abstain }

/-- Reads a layer: an object, in which other keys are ignored, or a list of all parts in order. -/
def ofValue? : Value → Option Layer
  | .object d =>
    let part := Document.get? d
    ofParts? (part "superuser_role") (part "skip_conditions") (part "default_action")
      (part "sql_placeholder") (part "abstain_without_instance")
  | .list [superuserRole, skipConditions, defaultAction, placeholder, abstain] =>
    ofParts? superuserRole skipConditions defaultAction placeholder abstain
  | _ => none

end Layer

end AccessRules

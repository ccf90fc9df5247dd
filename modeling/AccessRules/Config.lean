import AccessRules.Action
import AccessRules.Actor
import AccessRules.Sql.Fragment

/-! The configuration of authorization and the layers that it is put together from. A layer sets
some of the options; a later layer takes precedence, option by option. -/

namespace AccessRules

/-- The configuration of authorization. -/
structure Config where
  /-- The actors with this role bypass the rules. -/
  superuserRole : Option String := none
  /-- Whether every rule counts as one without a condition. -/
  skipConditions : Bool := false
  /-- The action of a policy that names none. -/
  defaultAction : String := Action.execute.name
  placeholder : Sql.Placeholder := .dollar
  /-- Whether a request is not allowed when the item that it depends on cannot be found. -/
  abstainWithoutItem : Bool := false
  deriving DecidableEq

namespace Config

/-- The configuration when no layer sets anything. -/
def default : Config := {}

/-- How clauses refer to their parameters. -/
def sqlOptions (c : Config) : Sql.Options := { style := c.placeholder }

/-- Whether the actor bypasses the rules. -/
def isSuperuser (c : Config) (u : Actor) : Bool := c.superuserRole.any u.hasRole

/-- The configuration as an object. -/
def toValue (c : Config) : Value :=
  .object [
    ("superuser_role", (c.superuserRole.map .text).getD .null),
    ("skip_conditions", .bool c.skipConditions),
    ("default_action", .text c.defaultAction),
    ("sql_placeholder", .text c.placeholder.name),
    ("abstain_without_instance", .bool c.abstainWithoutItem)]

end Config

end AccessRules

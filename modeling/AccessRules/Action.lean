import AccessRules.Value

/-! The usual actions. Rules name actions by text, so an application may have others; these are the
ones with a name of their own. -/

namespace AccessRules

/-- The action that stands for every action. -/
def manage : String := "manage"

/-- The type that stands for every type of subject. -/
def everyType : String := "all"

/-- A usual action. -/
inductive Action where
  | create
  | read
  | readAny
  | update
  | updateAny
  | delete
  | deleteAny
  | execute
  | manage
  deriving DecidableEq

namespace Action

/-- The usual actions in their order. -/
def every : List Action :=
  [create, read, readAny, update, updateAny, delete, deleteAny, execute, manage]

/-- The name by which rules call the action. -/
def name : Action → String
  | create => "create"
  | read => "read"
  | readAny => "read_any"
  | update => "update"
  | updateAny => "update_any"
  | delete => "delete"
  | deleteAny => "delete_any"
  | execute => "execute"
  | manage => AccessRules.manage

/-- The usual action of a name. -/
def ofName? (name : String) : Option Action := every.find? (·.name == name)

theorem ofName?_name (a : Action) : ofName? a.name = some a := by cases a <;> rfl

/-- Reads an action: its name, or an object with the name as its only key and null for a value. -/
def ofValue? : Value → Option Action
  | .text name => ofName? name
  | .object [(name, .null)] => ofName? name
  | _ => none

end Action

end AccessRules

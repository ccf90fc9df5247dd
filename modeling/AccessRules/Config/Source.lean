import AccessRules.Config.Layer
import AccessRules.Toml.Reader

/-! Where the layers of a configuration come from: the `[acl]` table of a file, and environment
variables on top of it. -/

namespace AccessRules

/-- Why a layer could not be had. -/
inductive ConfigError where
  /-- The file is there but is no text. -/
  | unreadable (path : String)
  /-- The file is no configuration. -/
  | malformed (path : String)
  | invalidValue (name text : String)
  deriving DecidableEq

/-- What is said of a layer that could not be had. -/
def ConfigError.message : ConfigError → String
  | unreadable path => "failed to read " ++ path
  | malformed path => "TOML parse error in " ++ path
  | invalidValue name text => "invalid value for " ++ name ++ ": " ++ text

/-- What is found at the path of a file. -/
inductive FileContent where
  | missing
  /-- Something that has no content. -/
  | directory
  | bytes (content : ByteArray)

namespace Layer

/-! ### From a file -/

/-- A text of a TOML table that may be left out. -/
def tomlText? : Option Toml.Item → Option (Option String)
  | none => some none
  | some (.text s) => some (some s)
  | _ => none

/-- A truth value of a TOML table that may be left out. -/
def tomlBool? : Option Toml.Item → Option (Option Bool)
  | none => some none
  | some (.bool b) => some (some b)
  | _ => none

/-- A placeholder of a TOML table that may be left out: its exact name, or a table with the name as
its only key and nothing under it. -/
def tomlPlaceholder? : Option Toml.Item → Option (Option Sql.Placeholder)
  | none => some none
  | some (.text name) => (Sql.Placeholder.ofName? name).map some
  | some (.table _ [(name, .table _ [])]) => (Sql.Placeholder.ofName? name).map some
  | some (.table _ [(name, .list [])]) => (Sql.Placeholder.ofName? name).map some
  | _ => none

/-- A layer from the items of its parts. -/
def ofItems? (superuserRole skipConditions defaultAction placeholder abstain : Option Toml.Item) :
    Option Layer := do
  return {
    superuserRole := ← tomlText? superuserRole
    skipConditions := ← tomlBool? skipConditions
    defaultAction := ← tomlText? defaultAction
    placeholder := ← tomlPlaceholder? placeholder
    abstainWithoutItem := ← tomlBool? abstain }

/-- Reads a layer: a table, in which other keys are ignored, or a list that starts with all parts in
order. A time is a record of its own and sets nothing. -/
def ofItem? : Toml.Item → Option Layer
  | .table _ entries =>
    let part := fun key => entries.lookup key
    ofItems? (part "superuser_role") (part "skip_conditions") (part "default_action")
      (part "sql_placeholder") (part "abstain_without_instance")
  | .list (superuserRole :: skipConditions :: defaultAction :: placeholder :: abstain :: _) =>
    ofItems? superuserRole skipConditions defaultAction placeholder abstain
  | .time => some empty
  | _ => none

/-- The layer of a TOML document. -/
def ofDocument? (text : String) : Option Layer := do
  let entries ← Toml.read? text
  match entries.lookup "acl" with
  | none => return empty
  | some item => ofItem? item

/-- The layer of a file; one that is missing sets nothing. -/
def ofFile (path : String) : FileContent → Except ConfigError Layer
  | .missing => .ok empty
  | .directory => .error (.unreadable path)
  | .bytes content =>
    match String.fromUTF8? content with
    | none => .error (.unreadable path)
    | some text =>
      match ofDocument? text with
      | none => .error (.malformed path)
      | some layer => .ok layer

/-! ### From the environment -/

/-- The variable that sets the role of superusers. -/
def superuserVariable : String := "LOOM_SERVER_ACL_SUPERUSER_ROLE"

/-- The variable that says whether conditions are skipped. -/
def skipVariable : String := "LOOM_SERVER_ACL_SKIP_CONDITIONS"

/-- The variable that sets the default action. -/
def actionVariable : String := "LOOM_SERVER_ACL_DEFAULT_ACTION"

/-- The variable that sets the placeholder. -/
def placeholderVariable : String := "LOOM_SERVER_ACL_SQL_PLACEHOLDER"

/-- The variable that says whether a request is not allowed without its item. -/
def abstainVariable : String := "LOOM_SERVER_ACL_ABSTAIN_WITHOUT_INSTANCE"

/-- The names of all variables. -/
def variableNames : List String :=
  [superuserVariable, skipVariable, actionVariable, placeholderVariable, abstainVariable]

/-- A variable that is set to something. -/
def setting? (environment : String → Option String) (name : String) : Option String :=
  nonempty (environment name)

/-- A variable that says yes or no; what is not a yes is a no. -/
def flag? (environment : String → Option String) (name : String) : Option Bool :=
  (setting? environment name).map fun s => Text.lower s == "true" || s == "1"

/-- The placeholder that the environment sets. -/
def environmentPlaceholder (environment : String → Option String) :
    Except ConfigError (Option Sql.Placeholder) :=
  match setting? environment placeholderVariable with
  | none => .ok none
  | some text =>
    match Sql.Placeholder.parse text with
    | .ok placeholder => .ok (some placeholder)
    | .error unknown => .error (.invalidValue placeholderVariable unknown.message)

/-- The layer of the environment. -/
def ofEnvironment (environment : String → Option String) : Except ConfigError Layer := do
  return {
    superuserRole := setting? environment superuserVariable
    skipConditions := flag? environment skipVariable
    defaultAction := setting? environment actionVariable
    placeholder := ← environmentPlaceholder environment
    abstainWithoutItem := flag? environment abstainVariable }

end Layer

namespace Config

/-- Where the configuration of the system is. -/
def systemPath : String := "/etc/loom/server.toml"

/-- The configuration of a file with the environment on top of it. -/
def load (path : String) (file : FileContent) (environment : String → Option String) :
    Except ConfigError Config := do
  let lower ← Layer.ofFile path file
  let upper ← Layer.ofEnvironment environment
  return ((Layer.empty.merge lower).merge upper).config

end Config

end AccessRules

import AccessRules.CommandLine.Arguments
import AccessRules.Config.Source
import AccessRules.FilterDocument
import AccessRules.Json.Printer
import AccessRules.Sql.Fragment

/-! What the commands print. -/

namespace AccessRules

namespace CommandLine

/-- Why a command fails. -/
inductive Failure where
  /-- The arguments make no command. -/
  | usage
  | unknownRole (role : String)
  | unknownUser (label : String)
  | config (cause : ConfigError)

namespace Failure

/-- The exit code. -/
def exitCode : Failure → Nat
  | usage => 2
  | _ => 1

/-- What is said of the failure. -/
def message : Failure → String
  | usage => "no such command"
  | unknownRole role => "unknown role: " ++ role
  | unknownUser label => "unknown sample user: " ++ label
  | config cause => cause.message

end Failure

/-- Whether something may be done, in words. -/
def permission (allowed : Bool) : String := if allowed then "can" else "can not"

/-- What the type alone says, in words. -/
def coarsePermission : Verdict → String
  | .settled true => "can"
  | .needsItem => "can (with conditions)"
  | .settled false => "can not"
  | .noRules => "can not"

/-- Words with blanks between them. -/
def sentence (words : List String) : String := " ".intercalate words

/-- The ability of a role. -/
def abilityOf (role : String) (skipConditions : Bool) : Except Failure Ability :=
  match Directory.abilityOf? role skipConditions with
  | some ability => .ok ability
  | none => .error (.unknownRole role)

/-- The lines about an action of a role. -/
def actionLines (role : String) (ability : Ability) (action : Action) : List String :=
  let line := fun words target => "  " ++ sentence [role, words, action.name, target]
  ("- " ++ String.ofList (action.name.toList.map Char.toUpper))
    :: line (coarsePermission (ability.verdict action.name Directory.userType)) Directory.userType
    :: Directory.users.map fun u =>
      line (permission (ability.can action.name (.item Directory.userType u.record))) u.label

/-- The lines about a role. -/
def roleLines (role : String) (skipConditions : Bool) : Except Failure (List String) := do
  let ability ← abilityOf role skipConditions
  return (role ++ " abilities:") :: Directory.actions.flatMap (actionLines role ability) ++ [""]

/-- The lines about each role, or about one. -/
def rolesLines (only : Option String) (skipConditions : Bool) : Except Failure (List String) := do
  let listed := Directory.roles.filter fun role => only.all (· == role)
  return (← listed.mapM (roleLines · skipConditions)).flatten

/-- The subject that a label stands for; without one, the type. -/
def subjectOf : Option String → Except Failure Subject
  | none => .ok (.bare Directory.userType)
  | some label =>
    match Directory.labelled? label with
    | some u => .ok (.item Directory.userType u.record)
    | none => .error (.unknownUser label)

/-- The lines about a check. -/
def checkLines (role action : String) (target : Option String) (skipConditions : Bool) :
    Except Failure (List String) := do
  let ability ← abilityOf role skipConditions
  let subject ← subjectOf target
  let rule :=
    match ability.decidingRule? action subject with
    | some r => Json.compact r.toValue
    | none => "no matching rule"
  return [
    sentence [role, permission (ability.can action subject), action,
      target.getD Directory.userType],
    "decided by: " ++ rule]

/-- The line about a test that SQL cannot express. -/
def residualLine (r : Sql.Residual) : String :=
  "residual: " ++
    sentence [r.field, if r.negated then "not" else "is", Json.compact (.object r.document)]

/-- The lines of a query as SQL. -/
def fragmentLines (f : Sql.Fragment) : List String :=
  [f.clause, "params: " ++ Json.compact (.list f.params)] ++ f.residuals.map residualLine

/-- The lines about a query. The placeholder is the configured one unless it is given. -/
def conditionsLines (config : Except ConfigError Config) (role action subject : String)
    (format : Format) (placeholder : Option Sql.Placeholder) (skipConditions : Bool) :
    Except Failure (List String) := do
  let ability ← abilityOf role skipConditions
  match ability.query? action subject, format with
  | none, _ => return [sentence ["no rules for", role, "to", action, subject]]
  | some query, .tree => return [Json.indented 0 query.formula.toValue]
  | some query, .document => return [Json.indented 0 (.object query.filter.document)]
  | some query, .sql =>
    match placeholder, config with
    | some style, _ => return fragmentLines (query.fragment { style })
    | none, .ok config => return fragmentLines (query.fragment config.sqlOptions)
    | none, .error cause => .error (.config cause)

/-- The lines that a command prints. -/
def Invocation.lines (config : Except ConfigError Config) (i : Invocation) :
    Except Failure (List String) :=
  match i.command with
  | .roles only => rolesLines only i.skipConditions
  | .check role action target => checkLines role action target i.skipConditions
  | .conditions role action subject format placeholder =>
    conditionsLines config role action subject format placeholder i.skipConditions

/-- The text that the arguments bring forth. -/
def run (config : Except ConfigError Config) (args : List String) : Except Failure String :=
  match Invocation.ofArguments? args with
  | none => .error .usage
  | some i => (i.lines config).map fun lines => String.join (lines.map (· ++ "\n"))

end CommandLine

end AccessRules

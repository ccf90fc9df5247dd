import AccessRules.Ability
import AccessRules.Actor
import AccessRules.Text

/-! Building the rules of an actor from permissions by role. A source of permissions has handlers: a
handler gives, for an actor, a program of steps that register rules, explain the last one or run the
handlers of another role in their place. A draft takes the steps one by one and remembers the roles
being applied, so a role that extends itself, directly or through others, is applied once. -/

namespace AccessRules

/-- One step of a handler's program. -/
inductive Step where
  | can (action subject : String)
  | canWhen (action subject : String) (condition : Value)
  | cannot (action subject : String)
  | cannotWhen (action subject : String) (condition : Value)
  /-- Gives the rule registered last its reason. -/
  | because (reason : String)
  /-- Runs the handlers of a role. -/
  | extend (role : String)

/-- The program that a role registers for an actor. -/
abbrev Handler := Actor → List Step

/-- A source of permissions: one handler for each of some roles. -/
structure Permissions where
  handlers : List (String × Handler)

namespace Permissions

/-- The source without handlers. -/
def empty : Permissions := ⟨[]⟩

/-- The source with a handler for a role, in place of an earlier one. -/
def withRole (p : Permissions) (role : String) (handler : Handler) : Permissions :=
  ⟨p.handlers.filter (·.1 != role) ++ [(role, handler)]⟩

/-- The handler of a role. -/
def handler? (p : Permissions) (role : String) : Option Handler := p.handlers.lookup role

/-- The roles with a handler, in order. -/
def roles (p : Permissions) : List String :=
  (p.handlers.map (·.1)).mergeSort fun a b => decide (a ≤ b)

/-- The program of a role for an actor; empty for a role without a handler. -/
def program (p : Permissions) (role : String) (u : Actor) : List Step :=
  match p.handler? role with
  | some handler => handler u
  | none => []

/-- The source as listings show it. -/
def describe (p : Permissions) : String :=
  "Permissions \x7b roles: " ++ Text.quotedList p.roles ++ " \x7d"

end Permissions

/-- The role whose handlers apply to every actor. -/
def everyone : String := "everyone"

/-- The other name of that role. -/
def everyAlias : String := "every"

/-- The rules registered so far. -/
structure Draft where
  /-- In the order of registration. -/
  rules : List Rule
  /-- The place of the rule that a reason would go to. -/
  last : Option Nat
  /-- The roles being applied, innermost first. -/
  applying : List String

namespace Draft

/-- The draft before any step. -/
def empty : Draft := ⟨[], none, []⟩

/-- Registers a rule. -/
def register (d : Draft) (r : Rule) : Draft :=
  { d with rules := d.rules ++ [r], last := some d.rules.length }

/-- Gives the rule registered last a reason, unless there is none to take it. -/
def explain (d : Draft) (reason : String) : Draft :=
  match d.last with
  | some place => { d with rules := d.rules.modify place (·.because reason) }
  | none => d

/-- One step, where `extend` applies a role. A grant needs an object for its condition and is
dropped without one; a denial without one is unconditional. -/
def step (extend : String → Draft → Draft) (d : Draft) : Step → Draft
  | .can action subject => d.register (.allow action subject)
  | .canWhen action subject (.object condition) =>
    d.register ((Rule.allow action subject).under condition)
  | .canWhen _ _ _ => { d with last := none }
  | .cannot action subject => d.register (.deny action subject)
  | .cannotWhen action subject (.object condition) =>
    d.register ((Rule.deny action subject).under condition)
  | .cannotWhen action subject _ => d.register (.deny action subject)
  | .because reason => d.explain reason
  | .extend role => extend role d

/-- Applies the handlers that `visited` sources have for a role, unless the role is being applied
already. Extended roles are looked up in all `sources`, at most `depth` roles deep. -/
def apply (u : Actor) (sources : List Permissions) :
    Nat → List Permissions → String → Draft → Draft
  | 0, _, _, d => d
  | depth + 1, visited, role, d =>
    if role ∈ d.applying then d
    else
      let entered := { d with applying := role :: d.applying }
      let applied := (visited.flatMap (·.program role u)).foldl
        (step (apply u sources depth sources)) entered
      { applied with applying := applied.applying.tail }

end Draft

/-- A role is nested in others at most as deep as there are handlers: each role that is being
applied has one, and none is applied twice. -/
def nestingBound (sources : List Permissions) : Nat :=
  (sources.flatMap (·.handlers)).length + 1

/-- The draft of an actor: the roles of every actor source by source, then the actor's roles. -/
def draftFor (u : Actor) (sources : List Permissions) : Draft :=
  let apply := Draft.apply u sources (nestingBound sources)
  let common := sources.foldl
    (fun d source => apply [source] everyAlias (apply [source] everyone d)) Draft.empty
  u.effectiveRoles.foldl (fun d role => apply sources role d) common

/-- The ability of an actor. -/
def buildAbility (u : Actor) (sources : List Permissions) (skipConditions : Bool) : Ability :=
  ⟨(draftFor u sources).rules, skipConditions⟩

end AccessRules

import AccessRules.Directory
import AccessRules.Sql.Placeholder

/-! The arguments of the command line. An option takes the argument after it or what follows its
equals sign, and none is given twice. -/

namespace AccessRules

namespace CommandLine

/-- The form in which a query is shown. -/
inductive Format where
  | tree
  | sql
  | document
  deriving DecidableEq

/-- The form of a name. -/
def Format.ofName? : String → Option Format
  | "ast" => some tree
  | "sql" => some sql
  | "mongo" => some document
  | _ => none

/-- What is to be done. -/
inductive Command where
  /-- Lists what each role, or one, may do to each user. -/
  | roles (role : Option String)
  /-- Checks an action on a user, or on the type of users. -/
  | check (role action : String) (target : Option String)
  /-- Shows the query of a role's rules. -/
  | conditions (role action subject : String) (format : Format)
      (placeholder : Option Sql.Placeholder)

/-- A command, and whether conditions are skipped. -/
structure Invocation where
  skipConditions : Bool
  command : Command

/-- The options given so far. -/
structure Given where
  skipConditions : Bool
  values : List (String × String)

namespace Given

/-- No options. -/
def none : Given := ⟨false, []⟩

/-- The value of an option. -/
def value? (g : Given) (name : String) : Option String := g.values.lookup name

/-- Adds the value of an option that a command has, unless it has one. -/
def add? (names : List String) (g : Given) (name value : String) : Option Given :=
  if name ∈ names ∧ (g.value? name).isNone then
    some { g with values := g.values ++ [(name, value)] }
  else Option.none

/-- Adds the flag, unless it is there. -/
def skip? (g : Given) : Option Given :=
  if g.skipConditions then Option.none else some { g with skipConditions := true }

end Given

/-- The name of an option, and its value if that is part of the argument. -/
def splitOption? (arg : String) : Option (String × Option String) :=
  match arg.toList with
  | '-' :: '-' :: chars =>
    let name := String.ofList (chars.takeWhile (· != '='))
    match chars.dropWhile (· != '=') with
    | [] => some (name, none)
    | _ :: value => some (name, some (String.ofList value))
  | _ => none

/-- Whether an argument can be the value of the option before it. -/
def isValue (arg : String) : Bool :=
  match arg.toList with
  | '-' :: _ :: _ => false
  | _ => true

/-- The options among the arguments after a command. Nothing may follow two dashes. -/
def options? (names : List String) (g : Given) : List String → Option Given
  | [] => some g
  | ["--"] => some g
  | arg :: rest =>
    match splitOption? arg, rest with
    | some ("skip-conditions", none), rest => do options? names (← g.skip?) rest
    | some (name, some value), rest => do options? names (← g.add? names name value) rest
    | some (name, none), value :: rest =>
      if isValue value then do options? names (← g.add? names name value) rest else none
    | _, _ => none

/-- A command from its name and options. -/
def command? (name : String) (args : List String) : Option (Bool × Command) :=
  match name with
  | "roles" => do
    let g ← options? ["role"] .none args
    return (g.skipConditions, .roles (g.value? "role"))
  | "check" => do
    let g ← options? ["role", "action", "target"] .none args
    return (g.skipConditions,
      .check (← g.value? "role") (← g.value? "action") (g.value? "target"))
  | "conditions" => do
    let g ← options? ["role", "action", "subject", "format", "placeholder"] .none args
    let format ← Format.ofName? ((g.value? "format").getD "sql")
    let placeholder ←
      match g.value? "placeholder" with
      | none => some none
      | some text => (Sql.Placeholder.parse text).toOption.map some
    return (g.skipConditions,
      .conditions (← g.value? "role") (← g.value? "action")
        ((g.value? "subject").getD Directory.userType) format placeholder)
  | _ => none

/-- Reads the arguments; nothing when they make no command. The flag may stand before the command
and after it. -/
def Invocation.ofArguments? : List String → Option Invocation
  | "--skip-conditions" :: name :: args => do
    let (_, command) ← command? name args
    return ⟨true, command⟩
  | name :: args => do
    let (skipConditions, command) ← command? name args
    return ⟨skipConditions, command⟩
  | [] => none

end CommandLine

end AccessRules

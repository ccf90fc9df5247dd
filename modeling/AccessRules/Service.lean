import AccessRules.Text
import AccessRules.Value

/-! Services: the stores from which subjects are fetched, each under a key. The key that is looked
up may leave out the name of the group that the service is registered in. -/

namespace AccessRules

/-- A store of items by id. -/
structure Service where
  /-- The kind of store; one who looks for another kind has no use for it. -/
  kind : String
  items : Document

/-- The services of an application by key. -/
structure Services where
  entries : List (String × Service)

/-- Why a service cannot be had. -/
inductive ServiceError where
  | notFound (key : String)
  | wrongKind (key expected : String)
  deriving DecidableEq

/-- What is said of a service that cannot be had. -/
def ServiceError.message : ServiceError → String
  | notFound key => "service not registered: " ++ key
  | wrongKind key expected => "service " ++ key ++ " is not a " ++ expected

namespace Services

/-- No services. -/
def empty : Services := ⟨[]⟩

/-- The services with one more, in place of an earlier one of its key. -/
def withService (s : Services) (key : String) (service : Service) : Services :=
  ⟨s.entries.filter (·.1 != key) ++ [(key, service)]⟩

/-- The groups whose names a key may leave out. -/
def groups : List String := ["services.", "repositories."]

/-- The service of a key: the one registered under the key itself, or else under the key in the
first group that has it. -/
def find? (s : Services) (key : String) : Option Service :=
  (key :: groups.map (· ++ key)).findSome? fun k => s.entries.lookup k

/-- Whether there is a service for the key. -/
def contains (s : Services) (key : String) : Bool := (s.find? key).isSome

/-- The service of a key, which has to be of the expected kind. -/
def get (s : Services) (key expected : String) : Except ServiceError Service :=
  match s.find? key with
  | none => .error (.notFound key)
  | some service =>
    if service.kind == expected then .ok service else .error (.wrongKind key expected)

/-- The keys in order. -/
def keys (s : Services) : List String :=
  (s.entries.map (·.1)).mergeSort fun a b => decide (a ≤ b)

/-- The services as listings show them. -/
def describe (s : Services) : String :=
  "ServiceRegistry \x7b keys: " ++ Text.quotedList s.keys ++ " \x7d"

end Services

end AccessRules

import AccessRules.Actor
import AccessRules.Service

/-! Requests as far as a decision depends on them: the parameters of the path and the query, and the
actor whom authentication has found. -/

namespace AccessRules

/-- A request. -/
structure Request where
  /-- The parameters, the latest first: it hides earlier ones of its name. -/
  params : List (String × String)
  /-- The authenticated actor. -/
  actor : Option Actor

namespace Request

/-- The request without parameters. -/
def ofActor (actor : Option Actor) : Request := ⟨[], actor⟩

/-- The request with one more parameter. -/
def withParam (r : Request) (name value : String) : Request :=
  { r with params := (name, value) :: r.params }

/-- The value of a parameter. -/
def param? (r : Request) (name : String) : Option String := r.params.lookup name

end Request

/-- All that the search for a subject may look at. -/
structure Context where
  request : Request
  services : Services
  actor : Actor

namespace Context

/-- The value of a parameter of the request. -/
def param? (c : Context) (name : String) : Option String := c.request.param? name

end Context

end AccessRules

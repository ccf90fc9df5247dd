import AccessRules.Json.Printer
import AccessRules.Sql.Token

/-! Fragments: the clause of a formula as text, with the values of its parameters in order and the
tests that SQL cannot express. A database takes each parameter as a bound value: a truth value is a
number; an integer beyond a signed 64-bit word and every double are real numbers; lists and objects,
which no clause has for parameters, are bound as text. -/

namespace AccessRules

namespace Sql

/-- How parameters are referred to. -/
structure Options where
  style : Placeholder := .dollar
  /-- The count of parameters bound before those of the clause. -/
  offset : UInt64 := 0

/-- The condition of a query, to be bound and run. -/
structure Fragment where
  clause : String
  params : List Value
  residuals : List Residual

namespace Fragment

/-- Whether the clause holds every test of the formula. -/
def isExact (f : Fragment) : Bool := f.residuals.isEmpty

/-- The fragment of a formula. -/
def ofFormula (options : Options) (f : Formula) : Fragment :=
  let lowered := lower false f
  let tokens := lowered.clause.tokens
  { clause := String.ofList (Token.write options.style (options.offset + 1) tokens)
    params := tokens.filterMap Token.value?
    residuals := lowered.residuals }

end Fragment

/-! ### Bound values -/

/-- A value bound to a parameter. -/
inductive Bound where
  | null
  | integer (n : Int)
  | real (x : Double)
  | text (s : String)

/-- What is bound for a number. -/
def Bound.ofNumber : Number → Bound
  | .int n => if n.val < 9223372036854775808 then .integer n.val else .real n.toDouble
  | .real x => .real x

/-- What is bound for a value. -/
def Bound.ofValue : Value → Bound
  | .null => null
  | .bool b => integer (if b then 1 else 0)
  | .number n => ofNumber n
  | .text s => text s
  | .list items => text (Json.compact (.list items))
  | .object d => text (Json.compact (.object d))

/-- What is bound for some parameters, in order. -/
def bind (params : List Value) : List Bound := params.map Bound.ofValue

end Sql

namespace Query

/-- The fragment of a query. -/
def fragment (q : Query) (options : Sql.Options) : Sql.Fragment :=
  Sql.Fragment.ofFormula options q.formula

end Query

end AccessRules

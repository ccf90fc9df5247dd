import AccessRules.Formula

/-! Condition documents. Each field of a document is a condition on the field of a subject of that
name: a literal, which asks for equality, or an operator object, whose keys all start with `$`. The
document means the conjunction of its fields. A field with an operator that is not understood, at
any depth, becomes one test that never holds, so no negation around it can turn it into a grant. A
condition keeps its document beside the formula, so that checks do not parse it again. -/

namespace AccessRules

/-- A name of an operator starts with `$`. -/
def isOperatorName (key : String) : Bool := key.toList.head? == some '$'

/-- An operator object has keys, and all of them name operators. -/
def Document.isOperators (d : Document) : Bool :=
  !d.isEmpty && d.all fun entry => isOperatorName entry.1

/-- Whether a value is an operator object. -/
def Value.isOperators : Value → Bool
  | .object d => Document.isOperators d
  | _ => false

/-- The test of an operator and its operand, where the pair is understood. -/
def Test.ofOperator? (operator : String) (operand : Value) : Option Test :=
  match operator, operand with
  | "$eq", v => some (.equals v)
  | "$ne", v => some (.differs v)
  | "$in", .list items => some (.oneOf items)
  | "$nin", .list items => some (.noneOf items)
  | "$exists", .bool expected => some (.present expected)
  | "$gt", v => some (.above v)
  | "$gte", v => some (.atLeast v)
  | "$lt", v => some (.below v)
  | "$lte", v => some (.atMost v)
  | _, _ => none

/-- The first operator that is not understood. -/
structure UnknownOperator where
  name : String

namespace Formula

/-- An operator other than negation. -/
def ofSimple (field operator : String) (operand : Value) : Except UnknownOperator Formula :=
  match Test.ofOperator? operator operand with
  | some test => .ok (.field ⟨field, test⟩)
  | none => .error ⟨operator⟩

mutual

/-- One operator on a field. A negated operator object is the negation of its conjunction, and any
other negated operand is a literal. -/
def ofOperator (field operator : String) : Value → Except UnknownOperator Formula
  | .object inner =>
    if operator = "$not" then
      if Document.isOperators inner then
        (ofOperators field inner).map fun parts => not (conjunction parts)
      else .ok (not (.field ⟨field, .equals (.object inner)⟩))
    else ofSimple field operator (.object inner)
  | operand =>
    if operator = "$not" then .ok (not (.field ⟨field, .equals operand⟩))
    else ofSimple field operator operand

/-- The operators of an object in order, up to the first that is not understood. -/
def ofOperators (field : String) : List (String × Value) → Except UnknownOperator (List Formula)
  | [] => .ok []
  | (operator, operand) :: rest =>
    match ofOperator field operator operand with
    | .error e => .error e
    | .ok f => (ofOperators field rest).map (f :: ·)

end

/-- The condition on one field. -/
def ofField (field : String) (value : Value) : Formula :=
  match value with
  | .object operators =>
    if Document.isOperators operators then
      match ofOperators field operators with
      | .ok parts => conjunction parts
      | .error e => .field ⟨field, .unsupported e.name value⟩
    else .field ⟨field, .equals value⟩
  | _ => .field ⟨field, .equals value⟩

/-- The formula of a condition document. -/
def ofDocument (d : Document) : Formula :=
  conjunction (d.map fun entry => ofField entry.1 entry.2)

end Formula

/-- A condition as it is kept: the document that it was given as, and what the document means. -/
structure Condition where
  document : Document
  formula : Formula

namespace Condition

/-- The condition of a document. -/
def ofDocument (d : Document) : Condition := ⟨d, .ofDocument d⟩

@[simp] theorem document_ofDocument (d : Document) : (ofDocument d).document = d := rfl

@[simp] theorem formula_ofDocument (d : Document) :
    (ofDocument d).formula = .ofDocument d := rfl

/-- Only the document is written; the formula is made again from it. -/
def toValue (c : Condition) : Value := .object c.document

end Condition

end AccessRules

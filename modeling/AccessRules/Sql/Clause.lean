import AccessRules.FilterDocument

/-! Clauses: formulas over tests that SQL can express, with their constants folded away. Lowering a
formula leaves a test that SQL cannot express out of the clause and reports it as a residual; the
constant in its place is true under an even number of negations and false under an odd one, so the
clause admits no fewer rows than the formula. -/

namespace AccessRules

namespace Sql

/-- A formula for the condition of a query. -/
inductive Clause where
  | constant (value : Bool)
  | all (parts : List Clause)
  | any (parts : List Clause)
  | not (part : Clause)
  | atom (test : FieldTest)

/-- What holds of the constants and the tests, and of a connective when it holds of its parts, holds
of every clause. -/
@[induction_eliminator] theorem Clause.induction {motive : Clause → Prop}
    (constant : ∀ value, motive (.constant value))
    (all : ∀ parts, (∀ c ∈ parts, motive c) → motive (.all parts))
    (any : ∀ parts, (∀ c ∈ parts, motive c) → motive (.any parts))
    (not : ∀ part, motive part → motive (.not part))
    (atom : ∀ t, motive (.atom t)) (c : Clause) : motive c :=
  match c with
  | .constant value => constant value
  | .all parts => all parts fun d _ => induction constant all any not atom d
  | .any parts => any parts fun d _ => induction constant all any not atom d
  | .not part => not part (induction constant all any not atom part)
  | .atom t => atom t

/-- A test that was left out of a clause. -/
structure Residual where
  field : String
  /-- The test as a filter document. -/
  document : Document
  /-- Whether the test stood under an odd number of negations. -/
  negated : Bool

/-- A clause and the tests left out of it, from left to right. -/
structure Lowered where
  clause : Clause
  residuals : List Residual

namespace Clause

/-- The negation of a clause, without a double negation or a negated constant. -/
def negate : Clause → Clause
  | constant value => constant (!value)
  | not part => part
  | c => not c

/-- Whether a clause is the constant. -/
def isConstant (value : Bool) : Clause → Bool
  | constant v => v == value
  | _ => false

/-- What a part leaves in a conjunction, or a disjunction: the constants go, and the parts of a
connective of the same kind take its place. -/
def flatten (conjunction : Bool) : Clause → List Clause
  | constant _ => []
  | all parts => if conjunction then parts else [all parts]
  | any parts => if conjunction then [any parts] else parts
  | c => [c]

/-- The conjunction, or the disjunction, of some clauses. -/
def connect (conjunction : Bool) (parts : List Clause) : Clause :=
  if parts.any (isConstant !conjunction) then constant !conjunction
  else match parts.flatMap (flatten conjunction) with
    | [] => constant conjunction
    | [c] => c
    | kept => if conjunction then all kept else any kept

end Clause

/-- Whether SQL can express a test: the operands must be scalar, and those that are ordered must be
numbers or texts. -/
def isExpressible : Test → Bool
  | .equals v | .differs v => v.isScalar
  | .oneOf items | .noneOf items => items.all Value.isScalar
  | .present _ => true
  | .above v | .atLeast v | .below v | .atMost v =>
    match v with
    | .number _ => true
    | .text _ => true
    | _ => false
  | .unsupported _ _ => false

/-- Lowers a test. A choice among no values is a constant. -/
def lowerTest (negated : Bool) (t : FieldTest) : Lowered :=
  match t.test with
  | .oneOf [] => ⟨.constant false, []⟩
  | .noneOf [] => ⟨.constant true, []⟩
  | test =>
    if isExpressible test then ⟨.atom t, []⟩
    else ⟨.constant !negated, [⟨t.field, t.document, negated⟩]⟩

mutual

/-- Lowers a formula that stands under an even or an odd number of negations. -/
def lower (negated : Bool) : Formula → Lowered
  | .all parts =>
    let lowered := lowerParts negated parts
    ⟨.connect true (lowered.map (·.clause)), lowered.flatMap (·.residuals)⟩
  | .any parts =>
    let lowered := lowerParts negated parts
    ⟨.connect false (lowered.map (·.clause)), lowered.flatMap (·.residuals)⟩
  | .not part =>
    let lowered := lower (!negated) part
    ⟨lowered.clause.negate, lowered.residuals⟩
  | .field t => lowerTest negated t

/-- Lowers the parts of a connective, all of them, so that no residual is lost. -/
def lowerParts (negated : Bool) : List Formula → List Lowered
  | [] => []
  | f :: rest => lower negated f :: lowerParts negated rest

end

end Sql

end AccessRules

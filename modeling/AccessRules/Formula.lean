import AccessRules.Value

/-! Formulas over the fields of a subject: tests on single fields under conjunction, disjunction and
negation. A missing field counts as null, and a test that is not understood never holds. -/

namespace AccessRules

/-- A test on the value of one field. -/
inductive Test where
  | equals (v : Value)
  | differs (v : Value)
  | oneOf (items : List Value)
  | noneOf (items : List Value)
  /-- Whether the field has a value other than null. -/
  | present (expected : Bool)
  | above (bound : Value)
  | atLeast (bound : Value)
  | below (bound : Value)
  | atMost (bound : Value)
  /-- An operator object, `whole`, in which `operator` is the first operator not understood. -/
  | unsupported (operator : String) (whole : Value)

/-- A test and the field that it is on. -/
structure FieldTest where
  field : String
  test : Test

/-- A formula over the fields of a subject. -/
inductive Formula where
  | all (parts : List Formula)
  | any (parts : List Formula)
  | not (part : Formula)
  | field (test : FieldTest)

/-- What holds of every test, and of a connective when it holds of its parts, holds of every
formula. -/
@[induction_eliminator] theorem Formula.induction {motive : Formula → Prop}
    (all : ∀ parts, (∀ f ∈ parts, motive f) → motive (.all parts))
    (any : ∀ parts, (∀ f ∈ parts, motive f) → motive (.any parts))
    (not : ∀ part, motive part → motive (.not part))
    (field : ∀ t, motive (.field t)) (f : Formula) : motive f :=
  match f with
  | .all parts => all parts fun g _ => induction all any not field g
  | .any parts => any parts fun g _ => induction all any not field g
  | .not part => not part (induction all any not field part)
  | .field t => field t

/-! ### Meaning -/

namespace Value

/-- Whether a field's value meets an expected one: a missing field as null, a list also through one
of its items unless a list is expected. -/
def meets (actual : Option Value) (expected : Value) : Bool :=
  match actual, expected with
  | none, v => v.isNull
  | some null, v => v.isNull
  | some (list xs), list ys => equal (list xs) (list ys)
  | some (list xs), v => xs.any (equal · v)
  | some w, v => equal w v

/-- Whether a field's value and a bound have an order and it is an accepted one. -/
def ordered (actual : Option Value) (bound : Value) (accept : Ordering → Bool) : Bool :=
  match actual with
  | none => false
  | some v => (v.compare? bound).any accept

/-- Whether a field has a value other than null. -/
def isPresent (actual : Option Value) : Bool :=
  match actual with
  | none => false
  | some v => !v.isNull

end Value

/-- Whether the value of the field, if any, passes the test. -/
def Test.holds (actual : Option Value) : Test → Bool
  | equals v => Value.meets actual v
  | differs v => !Value.meets actual v
  | oneOf items => items.any (Value.meets actual)
  | noneOf items => !items.any (Value.meets actual)
  | present expected => Value.isPresent actual == expected
  | above bound => Value.ordered actual bound (· == .gt)
  | atLeast bound => Value.ordered actual bound (· != .lt)
  | below bound => Value.ordered actual bound (· == .lt)
  | atMost bound => Value.ordered actual bound (· != .gt)
  | unsupported _ _ => false

/-- Whether the field of the test passes it. -/
def FieldTest.holds (t : FieldTest) (fields : Document) : Bool :=
  t.test.holds (fields.get? t.field)

namespace Formula

/-- The formula of every subject. -/
def always : Formula := all []

/-- The formula of no subject. -/
def never : Formula := any []

/-- The conjunction of some formulas, which is the formula itself if it is only one. -/
def conjunction : List Formula → Formula
  | [f] => f
  | fs => all fs

/-- The disjunction of some formulas, which is the formula itself if it is only one. -/
def disjunction : List Formula → Formula
  | [f] => f
  | fs => any fs

mutual

/-- Whether the fields satisfy the formula. -/
def holds (fields : Document) : Formula → Bool
  | all parts => allHold fields parts
  | any parts => anyHolds fields parts
  | not part => !holds fields part
  | field t => t.holds fields

/-- Whether the fields satisfy every formula. -/
def allHold (fields : Document) : List Formula → Bool
  | [] => true
  | f :: rest => holds fields f && allHold fields rest

/-- Whether the fields satisfy some formula. -/
def anyHolds (fields : Document) : List Formula → Bool
  | [] => false
  | f :: rest => holds fields f || anyHolds fields rest

end

theorem allHold_eq (fields : Document) (parts : List Formula) :
    allHold fields parts = parts.all (holds fields) := by
  induction parts with
  | nil => rfl
  | cons f rest ih => simp [allHold, ih]

theorem anyHolds_eq (fields : Document) (parts : List Formula) :
    anyHolds fields parts = parts.any (holds fields) := by
  induction parts with
  | nil => rfl
  | cons f rest ih => simp [anyHolds, ih]

@[simp] theorem holds_all (fields : Document) (parts : List Formula) :
    (all parts).holds fields = parts.all (holds fields) := by
  rw [holds, allHold_eq]

@[simp] theorem holds_any (fields : Document) (parts : List Formula) :
    (any parts).holds fields = parts.any (holds fields) := by
  rw [holds, anyHolds_eq]

@[simp] theorem holds_not (fields : Document) (part : Formula) :
    (not part).holds fields = !part.holds fields := by
  rw [holds]

@[simp] theorem holds_field (fields : Document) (t : FieldTest) :
    (field t).holds fields = t.holds fields := by
  rw [holds]

@[simp] theorem holds_conjunction (fields : Document) (parts : List Formula) :
    (conjunction parts).holds fields = parts.all (holds fields) := by
  unfold conjunction
  split
  · simp
  · rw [holds_all]

@[simp] theorem holds_disjunction (fields : Document) (parts : List Formula) :
    (disjunction parts).holds fields = parts.any (holds fields) := by
  unfold disjunction
  split
  · simp
  · rw [holds_any]

end Formula

/-! ### As a value -/

/-- A test as an object with its name as the only key. -/
def Test.toValue : Test → Value
  | equals v => .object [("eq", v)]
  | differs v => .object [("ne", v)]
  | oneOf items => .object [("in", .list items)]
  | noneOf items => .object [("nin", .list items)]
  | present expected => .object [("exists", .bool expected)]
  | above bound => .object [("gt", bound)]
  | atLeast bound => .object [("gte", bound)]
  | below bound => .object [("lt", bound)]
  | atMost bound => .object [("lte", bound)]
  | unsupported operator whole =>
    .object [("unsupported", .object [("operator", .text operator), ("value", whole)])]

/-- A test with its field. -/
def FieldTest.toValue (t : FieldTest) : Value :=
  .object [("field", .text t.field), ("op", t.test.toValue)]

namespace Formula

mutual

/-- A formula as a tree of objects, each with the connective as its only key. -/
def toValue : Formula → Value
  | all parts => .object [("and", .list (toValues parts))]
  | any parts => .object [("or", .list (toValues parts))]
  | not part => .object [("not", toValue part)]
  | field t => .object [("field", t.toValue)]

/-- Some formulas as values. -/
def toValues : List Formula → List Value
  | [] => []
  | f :: rest => toValue f :: toValues rest

end

end Formula

end AccessRules

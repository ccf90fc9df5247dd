import AccessRules.Sql.Token

/-! Conditions of SQL queries and their meaning on a row, in three truth values. A comparison with a
null is neither true nor false, a test for null always is one of the two, and the connectives take
the unknown for either. `Clause.condition` is the condition that a clause stands for. -/

namespace AccessRules

namespace Sql

/-! ### Truth values -/

inductive Truth where
  | true
  | false
  | unknown
  deriving DecidableEq

namespace Truth

/-- The truth value of what is known. -/
def ofBool (b : Bool) : Truth := if b then true else false

def not : Truth → Truth
  | true => false
  | false => true
  | unknown => unknown

def and : Truth → Truth → Truth
  | false, _ => false
  | _, false => false
  | true, true => true
  | _, _ => unknown

def or : Truth → Truth → Truth
  | true, _ => true
  | _, true => true
  | false, false => false
  | _, _ => unknown

/-- The conjunction, or else the disjunction, of two truth values. -/
def both (conjunction : Bool) : Truth → Truth → Truth := if conjunction then and else or

/-- The conjunction, or else the disjunction, of some truth values. -/
def join (conjunction : Bool) (ts : List Truth) : Truth :=
  ts.foldr (both conjunction) (ofBool conjunction)

@[simp] theorem not_not (t : Truth) : t.not.not = t := by cases t <;> rfl

@[simp] theorem not_ofBool (b : Bool) : (ofBool b).not = ofBool (!b) := by cases b <;> rfl

theorem not_eq_ofBool_iff (t : Truth) (b : Bool) : t.not = ofBool b ↔ t = ofBool (!b) := by
  cases t <;> cases b <;> decide

section Join

variable (conjunction : Bool)

theorem both_assoc (s t u : Truth) :
    both conjunction (both conjunction s t) u = both conjunction s (both conjunction t u) := by
  cases conjunction <;> cases s <;> cases t <;> cases u <;> rfl

@[simp] theorem both_unit (t : Truth) : both conjunction (ofBool conjunction) t = t := by
  cases conjunction <;> cases t <;> rfl

theorem not_both (s t : Truth) :
    (both conjunction s t).not = both (!conjunction) s.not t.not := by
  cases conjunction <;> cases s <;> cases t <;> rfl

theorem both_eq_iff (s t : Truth) :
    both conjunction s t = ofBool conjunction ↔
      s = ofBool conjunction ∧ t = ofBool conjunction := by
  cases conjunction <;> cases s <;> cases t <;> decide

theorem both_eq_not_iff (s t : Truth) :
    both conjunction s t = ofBool (!conjunction) ↔
      s = ofBool (!conjunction) ∨ t = ofBool (!conjunction) := by
  cases conjunction <;> cases s <;> cases t <;> decide

@[simp] theorem join_nil : join conjunction [] = ofBool conjunction := rfl

theorem join_cons (t : Truth) (ts : List Truth) :
    join conjunction (t :: ts) = both conjunction t (join conjunction ts) := rfl

@[simp] theorem join_singleton (t : Truth) : join conjunction [t] = t := by
  cases conjunction <;> cases t <;> rfl

theorem join_append (ts us : List Truth) :
    join conjunction (ts ++ us) = both conjunction (join conjunction ts) (join conjunction us) := by
  induction ts with
  | nil => simp
  | cons t ts ih => rw [List.cons_append, join_cons, ih, join_cons, both_assoc]

theorem not_join (ts : List Truth) :
    (join conjunction ts).not = join (!conjunction) (ts.map not) := by
  induction ts with
  | nil => exact not_ofBool conjunction
  | cons t ts ih => rw [join_cons, not_both, ih, List.map_cons, join_cons]

theorem join_eq_iff (ts : List Truth) :
    join conjunction ts = ofBool conjunction ↔ ∀ t ∈ ts, t = ofBool conjunction := by
  induction ts with
  | nil => simp
  | cons t ts ih => rw [join_cons, both_eq_iff, ih, List.forall_mem_cons]

theorem join_eq_not_iff (ts : List Truth) :
    join conjunction ts = ofBool (!conjunction) ↔ ofBool (!conjunction) ∈ ts := by
  induction ts with
  | nil => cases conjunction <;> decide
  | cons t ts ih => rw [join_cons, both_eq_not_iff, ih, List.mem_cons, eq_comm]

end Join

/-- What is known is joined to what is known. -/
theorem join_ofBool {α : Type} (conjunction : Bool) (f : α → Bool) (xs : List α) :
    join conjunction (xs.map fun x => ofBool (f x)) =
      ofBool (if conjunction then xs.all f else xs.any f) := by
  induction xs with
  | nil => cases conjunction <;> rfl
  | cons x xs ih =>
    rw [List.map_cons, join_cons, ih, List.all_cons, List.any_cons]
    cases conjunction <;> cases f x <;> cases xs.all f <;> cases xs.any f <;> rfl

theorem join_unknown {α : Type} (conjunction : Bool) {xs : List α} (some_item : xs ≠ []) :
    join conjunction (xs.map fun _ => unknown) = unknown := by
  induction xs with
  | nil => contradiction
  | cons x xs ih =>
    rw [List.map_cons, join_cons]
    cases xs with
    | nil => cases conjunction <;> rfl
    | cons y ys =>
      rw [ih (by simp)]
      cases conjunction <;> rfl

section Map

variable {α : Type} {f : α → Truth} {g : α → Bool} {b : Bool} {xs : List α}

/-- Verdicts that agree on being `b` agree on it after they are joined. -/
theorem join_true_map (h : ∀ x ∈ xs, f x = ofBool b ↔ g x = b) :
    join Bool.true (xs.map f) = ofBool b ↔ xs.all g = b := by
  cases b with
  | true => rw [join_eq_iff Bool.true, List.forall_mem_map, List.all_eq_true]; exact forall₂_congr h
  | false =>
    rw [← Bool.not_true, join_eq_not_iff, List.mem_map, Bool.not_true, List.all_eq_false]
    simp only [Bool.not_eq_true]
    exact exists_congr fun x => and_congr_right (h x)

theorem join_false_map (h : ∀ x ∈ xs, f x = ofBool b ↔ g x = b) :
    join Bool.false (xs.map f) = ofBool b ↔ xs.any g = b := by
  cases b with
  | false =>
    rw [join_eq_iff Bool.false, List.forall_mem_map, List.any_eq_false]
    simp only [Bool.not_eq_true]
    exact forall₂_congr h
  | true =>
    rw [← Bool.not_false, join_eq_not_iff, List.mem_map, Bool.not_false, List.any_eq_true]
    exact exists_congr fun x => and_congr_right (h x)

end Map

end Truth

/-! ### Rows -/

/-- A row of a table: its columns are null or scalar. -/
structure Row where
  fields : Document
  scalar : ∀ column ∈ fields, column.2.isScalar

/-- The value of a column; one that the row lacks is null. -/
def Row.column (row : Row) (name : String) : Value := (row.fields.get? name).getD .null

theorem Row.isScalar_column (row : Row) (name : String) : (row.column name).isScalar := by
  unfold column Document.get?
  cases h : row.fields.lookup name with
  | none => rfl
  | some v =>
    obtain ⟨before, after, split, -⟩ := List.lookup_eq_some_iff.mp h
    exact row.scalar (name, v) (by simp [split])

/-! ### Conditions -/

/-- A condition of a query, with the values of its parameters. -/
inductive Condition where
  | constant (value : Bool)
  | null (column : String) (isNull : Bool)
  | compare (column : String) (c : Comparison) (operand : Value)
  /-- The column is, or is not, one of the operands. -/
  | member (column : String) (isIn : Bool) (operands : List Value)
  | all (parts : List Condition)
  | any (parts : List Condition)
  | not (part : Condition)

/-- Whether two values that are not null compare so. -/
def Comparison.holds (c : Comparison) (v w : Value) : Bool :=
  match c with
  | equal => v.equal w
  | unequal => !v.equal w
  | greater => (v.compare? w).any (· == .gt)
  | greaterEqual => (v.compare? w).any (· != .lt)
  | less => (v.compare? w).any (· == .lt)
  | lessEqual => (v.compare? w).any (· != .gt)

/-- The comparison of two values, which a null leaves unknown. -/
def Comparison.truth (c : Comparison) (v w : Value) : Truth :=
  if v.isNull || w.isNull then .unknown else .ofBool (c.holds v w)

namespace Condition

def choice (v : Value) (isIn : Bool) (operands : List Value) : Truth :=
  let found := Truth.join false (operands.map (Comparison.equal.truth v))
  if isIn then found else found.not

mutual

/-- The truth value of a condition on a row. -/
def truth (row : Row) : Condition → Truth
  | constant value => .ofBool value
  | null column isNull => .ofBool ((row.column column).isNull == isNull)
  | compare column c operand => c.truth (row.column column) operand
  | member column isIn operands => choice (row.column column) isIn operands
  | all parts => .join true (truths row parts)
  | any parts => .join false (truths row parts)
  | not part => (truth row part).not

def truths (row : Row) : List Condition → List Truth
  | [] => []
  | c :: rest => truth row c :: truths row rest

end

theorem truths_eq_map (row : Row) (parts : List Condition) :
    truths row parts = parts.map (truth row) := by
  induction parts with
  | nil => rfl
  | cons c rest ih => rw [truths, ih, List.map_cons]

/-! ### Clauses -/

/-- A choice among some values: null among them is asked for by a test of its own. -/
def membership (column : String) (items : List Value) (isIn : Bool) : Condition :=
  let values := items.filter fun v => !v.isNull
  if values.isEmpty then null column isIn
  else if values.length == items.length then member column isIn values
  else if isIn then any [member column isIn values, null column isIn]
  else all [member column isIn values, null column isIn]

/-- The condition of a test on a column. -/
def ofTest (t : FieldTest) : Condition :=
  match t.test with
  | .equals .null | .present false => null t.field true
  | .differs .null | .present true => null t.field false
  | .equals v => compare t.field .equal v
  | .differs v => compare t.field .unequal v
  | .above v => compare t.field .greater v
  | .atLeast v => compare t.field .greaterEqual v
  | .below v => compare t.field .less v
  | .atMost v => compare t.field .lessEqual v
  | .oneOf items => membership t.field items true
  | .noneOf items => membership t.field items false
  | .unsupported _ _ => constant false

end Condition

namespace Clause

mutual

/-- The condition that a clause stands for. -/
def condition : Clause → Condition
  | constant value => .constant value
  | all parts => .all (conditions parts)
  | any parts => .any (conditions parts)
  | not part => .not (condition part)
  | atom t => .ofTest t

def conditions : List Clause → List Condition
  | [] => []
  | c :: rest => condition c :: conditions rest

end

theorem conditions_eq_map (parts : List Clause) : conditions parts = parts.map condition := by
  induction parts with
  | nil => rfl
  | cons c rest ih => rw [conditions, ih, List.map_cons]

def truth (row : Row) (c : Clause) : Truth := c.condition.truth row

@[simp] theorem truth_constant (row : Row) (value : Bool) :
    (constant value).truth row = .ofBool value := rfl

@[simp] theorem truth_not (row : Row) (part : Clause) :
    (not part).truth row = (part.truth row).not := rfl

@[simp] theorem truth_all (row : Row) (parts : List Clause) :
    (all parts).truth row = .join true (parts.map (truth row)) := by
  rw [truth, condition, Condition.truth, Condition.truths_eq_map, conditions_eq_map, List.map_map]
  rfl

@[simp] theorem truth_any (row : Row) (parts : List Clause) :
    (any parts).truth row = .join false (parts.map (truth row)) := by
  rw [truth, condition, Condition.truth, Condition.truths_eq_map, conditions_eq_map, List.map_map]
  rfl

theorem truth_atom (row : Row) (t : FieldTest) :
    (atom t).truth row = (Condition.ofTest t).truth row := rfl

end Clause

end Sql

end AccessRules

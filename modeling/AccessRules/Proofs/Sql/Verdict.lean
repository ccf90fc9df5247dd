import AccessRules.Proofs.Sql.Condition

/-! What SQL makes of a test that it can express: unknown when the column is null and the test
compares with values, and else what the test makes of the column. A choice with null among its
values asks for null beside the choice, so it is never unknown. -/

namespace AccessRules

namespace Sql

/-! ### Columns -/

/-- A missing field passes the tests that a null one passes. -/
theorem holds_none (test : Test) : test.holds none = test.holds (some .null) := by
  cases test <;> rfl

theorem holds_eq_column (row : Row) (t : FieldTest) :
    t.holds row.fields = t.test.holds (some (row.column t.field)) := by
  unfold FieldTest.holds Row.column
  cases row.fields.get? t.field with
  | none => exact holds_none t.test
  | some v => rfl

/-- Whether SQL makes nothing of a test on a null column: it compares with values, and does not ask
for null. -/
def asksForValues : Test → Bool
  | .equals v | .differs v => !v.isNull
  | .oneOf items | .noneOf items => !items.isEmpty && items.all fun v => !v.isNull
  | .above _ | .atLeast _ | .below _ | .atMost _ => true
  | .present _ | .unsupported _ _ => false

/-- Whether SQL leaves a test unknown on a row. -/
def isUnknown (row : Row) (t : FieldTest) : Bool :=
  (row.column t.field).isNull && asksForValues t.test

section Column

variable {v : Value}

theorem meets_null (w : Value) : Value.meets (some .null) w = w.isNull := by cases w <;> rfl

theorem eq_null_of_isNull (h : v.isNull) : v = .null := by
  cases v <;> first | rfl | contradiction

/-- A scalar other than null meets the values that it equals. -/
theorem meets_scalar (scalar : v.isScalar) (value : v.isNull = false) (w : Value) :
    Value.meets (some v) w = v.equal w := by
  cases v <;> first | rfl | contradiction

theorem equal_null (value : v.isNull = false) : v.equal .null = false := by
  cases v <;> first | rfl | contradiction

theorem Comparison.truth_of_values (c : Comparison) {w : Value} (hv : v.isNull = false)
    (hw : w.isNull = false) : c.truth v w = .ofBool (c.holds v w) := by
  rw [truth, hv, hw]
  rfl

end Column

/-! ### Truth of choices -/

/-- The choice among none of some values is the negation of the choice among them. -/
theorem membership_false_truth (row : Row) (name : String) (items : List Value) :
    (Condition.membership name items false).truth row =
      ((Condition.membership name items true).truth row).not := by
  have null_not : ∀ b : Bool, (b == false) = !(b == true) := by decide
  unfold Condition.membership
  simp only
  split
  · simp [Condition.truth, null_not]
  · split
    · simp [Condition.truth, Condition.choice]
    · simp [Condition.truth, Condition.truths_eq_map, Condition.choice, Truth.not_join, null_not]

theorem choice_null {values : List Value} (some_value : values ≠ []) :
    Condition.choice .null true values = .unknown := by
  have unknown : (values.map (Comparison.equal.truth .null)) = values.map fun _ => .unknown := rfl
  rw [Condition.choice, unknown, Truth.join_unknown false some_value]
  rfl

theorem choice_value {v : Value} (scalar : v.isScalar) (value : v.isNull = false)
    (items : List Value) :
    Condition.choice v true (items.filter fun w => !w.isNull) =
      .ofBool (items.any (Value.meets (some v))) := by
  have truth : ∀ w ∈ items.filter fun w => !w.isNull,
      Comparison.equal.truth v w = .ofBool (Value.meets (some v) w) := by
    intro w hw
    have hw : w.isNull = false := by simpa using (List.mem_filter.mp hw).2
    rw [Comparison.truth_of_values _ value hw, meets_scalar scalar value]
    rfl
  have null_met : ∀ w, (!w.isNull && Value.meets (some v) w) = Value.meets (some v) w := by
    intro w
    cases null : w.isNull with
    | false => rfl
    | true => rw [eq_null_of_isNull null, meets_scalar scalar value, equal_null value]; rfl
  rw [Condition.choice, if_pos rfl, List.map_congr_left truth, Truth.join_ofBool,
    if_neg Bool.false_ne_true, List.any_filter]
  simp only [null_met]

/-- A choice on a null column is unknown when none of the values is null, and else holds. -/
theorem membership_truth_null {row : Row} {name : String} {items : List Value}
    (null : row.column name = .null) (some_item : items ≠ []) :
    (Condition.membership name items true).truth row =
      if items.all fun w => !w.isNull then .unknown else .true := by
  unfold Condition.membership
  simp only
  split
  case isTrue none =>
    obtain ⟨w, rest, rfl⟩ := List.exists_cons_of_ne_nil some_item
    have hw : w.isNull = true := by
      rw [List.isEmpty_iff, List.filter_eq_nil_iff] at none
      simpa using none w (by simp)
    have not_every : ((w :: rest).all fun w => !w.isNull) = false := by simp [hw]
    rw [not_every, if_neg Bool.false_ne_true, Condition.truth, null]
    rfl
  case isFalse some_value =>
    have unknown := choice_null (mt List.isEmpty_iff.mpr some_value)
    split
    case isTrue every =>
      rw [beq_iff_eq, List.length_filter_eq_length_iff, ← List.all_eq_true] at every
      rw [if_pos every, Condition.truth, null, unknown]
    case isFalse one =>
      rw [beq_iff_eq, List.length_filter_eq_length_iff, ← List.all_eq_true] at one
      rw [if_neg one, if_pos trivial, Condition.truth, Condition.truths_eq_map]
      simp only [List.map_cons, List.map_nil, Condition.truth, null, unknown]
      rfl

/-- A choice on a column with a value holds when the value is one of those chosen among. -/
theorem membership_truth_value {row : Row} {name : String}
    (value : (row.column name).isNull = false) (items : List Value) :
    (Condition.membership name items true).truth row =
      .ofBool (items.any (Value.meets (some (row.column name)))) := by
  have choice := choice_value (row.isScalar_column name) value items
  unfold Condition.membership
  simp only
  split
  case isTrue none =>
    rw [List.isEmpty_iff] at none
    rw [← choice, none, Condition.truth, value]
    rfl
  case isFalse =>
    split
    case isTrue => rw [Condition.truth, choice]
    case isFalse =>
      rw [if_pos trivial, Condition.truth, Condition.truths_eq_map]
      simp only [List.map_cons, List.map_nil, Condition.truth, choice, value]
      cases items.any (Value.meets (some (row.column name))) <;> rfl

/-! ### Truth of tests -/

/-- What SQL makes of a test that it can express. -/
def testTruth (row : Row) (t : FieldTest) : Truth :=
  if isUnknown row t then .unknown else .ofBool (t.holds row.fields)

theorem testTruth_eq (row : Row) (name : String) (test : Test) :
    testTruth row ⟨name, test⟩ =
      if (row.column name).isNull && asksForValues test then .unknown
      else .ofBool (test.holds (some (row.column name))) := by
  rw [testTruth, holds_eq_column]
  rfl

/-- Tests that are the negations of one another are so in three values too. -/
theorem testTruth_not (row : Row) (name : String) {test other : Test}
    (asks : asksForValues other = asksForValues test)
    (holds : ∀ v, other.holds v = !test.holds v) :
    testTruth row ⟨name, other⟩ = (testTruth row ⟨name, test⟩).not := by
  rw [testTruth_eq, testTruth_eq, asks, holds]
  split
  · rfl
  · rw [Truth.not_ofBool]

theorem truth_equals (row : Row) (name : String) (v : Value) :
    (Condition.ofTest ⟨name, .equals v⟩).truth row = testTruth row ⟨name, .equals v⟩ := by
  rw [testTruth_eq, asksForValues, Test.holds]
  have scalar := row.isScalar_column name
  cases null : v.isNull with
  | true =>
    rw [eq_null_of_isNull null, Condition.ofTest, Condition.truth]
    cases value : (row.column name).isNull with
    | true => rw [eq_null_of_isNull value]; rfl
    | false => rw [meets_scalar scalar value, equal_null value]; rfl
  | false =>
    have compare : Condition.ofTest ⟨name, .equals v⟩ = .compare name .equal v := by
      cases v <;> first | rfl | contradiction
    rw [compare, Condition.truth, Comparison.truth, null]
    cases value : (row.column name).isNull with
    | true => rfl
    | false => rw [meets_scalar scalar value]; rfl

theorem truth_differs (row : Row) (name : String) (v : Value) :
    (Condition.ofTest ⟨name, .differs v⟩).truth row =
      ((Condition.ofTest ⟨name, .equals v⟩).truth row).not := by
  cases v with
  | null =>
    rw [Condition.ofTest, Condition.ofTest, Condition.truth, Condition.truth]
    cases (row.column name).isNull <;> rfl
  | _ =>
    rw [Condition.ofTest, Condition.ofTest, Condition.truth, Condition.truth, Comparison.truth,
      Comparison.truth]
    split
    · rfl
    · rw [Truth.not_ofBool]; rfl

theorem truth_oneOf (row : Row) (name : String) {items : List Value} (some_item : items ≠ []) :
    (Condition.ofTest ⟨name, .oneOf items⟩).truth row = testTruth row ⟨name, .oneOf items⟩ := by
  rw [testTruth_eq, asksForValues, Test.holds, Condition.ofTest]
  cases null : (row.column name).isNull with
  | false => rw [membership_truth_value null, Bool.false_and, if_neg Bool.false_ne_true]
  | true =>
    have not_empty : items.isEmpty = false := by simpa using some_item
    rw [membership_truth_null (eq_null_of_isNull null) some_item, eq_null_of_isNull null,
      Bool.true_and, not_empty, Bool.not_false, Bool.true_and]
    split
    case isTrue => rfl
    case isFalse one =>
      obtain ⟨w, hw, null⟩ : ∃ w ∈ items, w.isNull := by simpa using one
      have met : items.any (Value.meets (some .null)) = true :=
        List.any_eq_true.mpr ⟨w, hw, by rw [meets_null, null]⟩
      rw [met]
      rfl

/-- A choice among no values is lowered to a constant, and not to a test on the column. -/
def isEmptyChoice : Test → Bool
  | .oneOf items | .noneOf items => items.isEmpty
  | _ => false

theorem truth_ofTest (row : Row) {t : FieldTest} (expressible : isExpressible t.test)
    (choice : isEmptyChoice t.test = false) :
    (Condition.ofTest t).truth row = testTruth row t := by
  obtain ⟨name, test⟩ := t
  cases test with
  | equals v => exact truth_equals row name v
  | differs v =>
    have negation : testTruth row ⟨name, .differs v⟩ = (testTruth row ⟨name, .equals v⟩).not :=
      testTruth_not row name rfl fun _ => rfl
    rw [truth_differs, truth_equals, negation]
  | oneOf items => exact truth_oneOf row name (by simpa [isEmptyChoice] using choice)
  | noneOf items =>
    have some_item : items ≠ [] := by simpa [isEmptyChoice] using choice
    have negation :
        testTruth row ⟨name, .noneOf items⟩ = (testTruth row ⟨name, .oneOf items⟩).not :=
      testTruth_not row name rfl fun _ => rfl
    rw [negation, ← truth_oneOf row name some_item]
    exact membership_false_truth row name items
  | present expected =>
    rw [testTruth_eq, asksForValues, Test.holds, Value.isPresent]
    cases expected <;> rw [Condition.ofTest, Condition.truth] <;>
      cases (row.column name).isNull <;> rfl
  | above v | atLeast v | below v | atMost v =>
    have value : v.isNull = false := by cases v <;> first | rfl | contradiction
    rw [testTruth_eq, asksForValues, Bool.and_true, Condition.ofTest, Condition.truth,
      Comparison.truth, value, Bool.or_false]
    rfl
  | unsupported operator whole => contradiction

end Sql

end AccessRules

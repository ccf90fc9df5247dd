import AccessRules.Proofs.Sql.Lowering

/-! The tests that a fragment leaves to be checked in memory. They are all the tests of the formula
that SQL cannot express, in the order in which they stand in it, whatever becomes of the parts that
they stand in: a part that is folded away takes no residual with it. -/

namespace AccessRules

/-! ### Occurrences -/

/-- A test where it stands in a formula, with the number of negations that are around it. -/
structure Occurrence where
  test : FieldTest
  negations : Nat

namespace Occurrence

/-- The occurrence in the negation of the formula. -/
def negate (o : Occurrence) : Occurrence := { o with negations := o.negations + 1 }

def isNegated (o : Occurrence) : Bool := o.negations % 2 == 1

theorem isNegated_negate (o : Occurrence) : o.negate.isNegated = !o.isNegated := by
  rw [negate, isNegated, isNegated]
  rcases Nat.mod_two_eq_zero_or_one o.negations with even | odd
  · have : (o.negations + 1) % 2 = 1 := by omega
    rw [even, this]
    rfl
  · have : (o.negations + 1) % 2 = 0 := by omega
    rw [odd, this]
    rfl

end Occurrence

namespace Formula

mutual

/-- The tests of a formula from left to right. -/
def occurrences : Formula → List Occurrence
  | all parts => occurrencesOf parts
  | any parts => occurrencesOf parts
  | not part => (occurrences part).map .negate
  | field t => [⟨t, 0⟩]

def occurrencesOf : List Formula → List Occurrence
  | [] => []
  | f :: rest => occurrences f ++ occurrencesOf rest

end

theorem occurrencesOf_eq_flatMap (parts : List Formula) :
    occurrencesOf parts = parts.flatMap occurrences := by
  induction parts with
  | nil => rfl
  | cons f rest ih => rw [occurrencesOf, ih, List.flatMap_cons]

/-- The flag that is passed down a formula says of each test whether the negations around it are
odd in number, those around the formula included. -/
theorem tests_eq_occurrences (negated : Bool) (f : Formula) :
    f.tests negated = f.occurrences.map fun o => (o.test, negated ^^ o.isNegated) := by
  induction f generalizing negated with
  | all parts ih =>
    rw [tests_all, occurrences, occurrencesOf_eq_flatMap, List.map_flatMap]
    exact List.flatMap_congr fun f hf => ih f hf negated
  | any parts ih =>
    rw [tests_any, occurrences, occurrencesOf_eq_flatMap, List.map_flatMap]
    exact List.flatMap_congr fun f hf => ih f hf negated
  | not part ih =>
    rw [tests_not, ih, occurrences, List.map_map]
    refine List.map_congr_left fun o _ => ?_
    rw [Function.comp_apply, Occurrence.isNegated_negate, Bool.not_xor, ← Bool.xor_not]
    rfl
  | field t =>
    rw [tests_field, occurrences]
    cases negated <;> rfl

end Formula

/-! ### What SQL cannot express -/

def Value.HasParts (v : Value) : Prop := (∃ items, v = .list items) ∨ ∃ d, v = .object d

def Value.HasOrder (v : Value) : Prop := (∃ n, v = .number n) ∨ ∃ s, v = .text s

/-- A value with parts is compared with, on its own or in a choice, or the bound of a comparison is
neither a number nor a text, or the test is not understood. -/
def Test.BeyondSql : Test → Prop
  | equals v | differs v => v.HasParts
  | oneOf items | noneOf items => ∃ v ∈ items, v.HasParts
  | present _ => False
  | above bound | atLeast bound | below bound | atMost bound => ¬bound.HasOrder
  | unsupported _ _ => True

theorem Value.isScalar_eq_false_iff {v : Value} : v.isScalar = false ↔ v.HasParts := by
  cases v <;> simp [isScalar, HasParts]

theorem Value.all_isScalar_eq_false_iff {items : List Value} :
    items.all isScalar = false ↔ ∃ v ∈ items, v.HasParts := by
  simp only [List.all_eq_false, Bool.not_eq_true, isScalar_eq_false_iff]

namespace Sql

theorem isExpressible_eq_false_iff {test : Test} : isExpressible test = false ↔ test.BeyondSql := by
  cases test with
  | equals v | differs v => exact Value.isScalar_eq_false_iff
  | oneOf items | noneOf items => exact Value.all_isScalar_eq_false_iff
  | present expected => simp [isExpressible, Test.BeyondSql]
  | above bound | atLeast bound | below bound | atMost bound =>
    cases bound <;> simp [isExpressible, Test.BeyondSql, Value.HasOrder]
  | unsupported operator whole => simp [isExpressible, Test.BeyondSql]

instance : DecidablePred Test.BeyondSql :=
  fun test => decidable_of_iff (isExpressible test = false) isExpressible_eq_false_iff

/-- The residual for a test that stands in the formula of a fragment. -/
def Residual.ofOccurrence (o : Occurrence) : Residual :=
  ⟨o.test.field, o.test.document, o.isNegated⟩

theorem residuals_eq (f : Formula) :
    (lower false f).residuals =
      (f.occurrences.filter fun o => o.test.test.BeyondSql).map .ofOccurrence := by
  have beyond : ∀ o : Occurrence, (!isExpressible o.test.test) = decide o.test.test.BeyondSql := by
    intro o
    rw [Bool.eq_iff_iff, decide_eq_true_iff, ← isExpressible_eq_false_iff, Bool.not_eq_true']
  rw [lower_residuals, Formula.tests_eq_occurrences, List.filter_map, List.map_map]
  simp only [Function.comp_def, beyond, Bool.false_xor]
  rfl

/-- The residuals of a fragment are the tests of the formula that SQL cannot express, from left to
right, each with its field, its document and whether the negations around it are odd in number. The
fragment is exact if and only if there is no such test. -/
theorem Fragment.residuals_ofFormula (options : Options) (f : Formula) :
    (ofFormula options f).residuals =
      (f.occurrences.filter fun o => o.test.test.BeyondSql).map
        (fun o => ⟨o.test.field, o.test.document, o.negations % 2 = 1⟩) ∧
    ((ofFormula options f).isExact ↔ ∀ o ∈ f.occurrences, ¬o.test.test.BeyondSql) := by
  have residuals : (ofFormula options f).residuals =
      (f.occurrences.filter fun o => o.test.test.BeyondSql).map .ofOccurrence := residuals_eq f
  refine ⟨residuals, ?_⟩
  rw [isExact, residuals, List.isEmpty_iff, List.map_eq_nil_iff, List.filter_eq_nil_iff]
  simp only [decide_eq_true_iff]

/-- A part that is folded away leaves its residual. -/
example :
    let f : Formula := .all [.never, .not (.not (.not (.field ⟨"tags", .equals (.list [])⟩)))]
    (Fragment.ofFormula {} f).residuals.map (fun r => (r.field, r.negated)) = [("tags", true)] ∧
      (Fragment.ofFormula {} f).clause = "false" := by decide

end Sql

end AccessRules

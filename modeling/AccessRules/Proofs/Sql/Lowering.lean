import AccessRules.Proofs.Formula.Polarity
import AccessRules.Proofs.Sql.Reading
import AccessRules.Proofs.Sql.Verdict

/-! Lowering a formula. Every connective of the clause has two parts or more, every test that SQL
cannot express is a residual, and the truth of the clause is the formula judged with what SQL makes
of each test: what it leaves unknown counts against the row, and what it cannot express for it. -/

namespace AccessRules

namespace Sql

/-! ### Connectives -/

namespace Clause

theorem Grouped.negate {c : Clause} (h : c.Grouped) : c.negate.Grouped := by
  cases h with
  | constant value => exact .constant _
  | all two parts => exact .not (.all two parts)
  | any two parts => exact .not (.any two parts)
  | not part => exact part
  | atom t => exact .not (.atom t)

theorem grouped_of_mem_flatten {conjunction : Bool} {c d : Clause} (h : c.Grouped)
    (mem : d ∈ c.flatten conjunction) : d.Grouped := by
  cases h with
  | constant value => simp [flatten] at mem
  | all two parts =>
    cases conjunction with
    | true => exact parts d mem
    | false => exact List.mem_singleton.mp mem ▸ .all two parts
  | any two parts =>
    cases conjunction with
    | true => exact List.mem_singleton.mp mem ▸ .any two parts
    | false => exact parts d mem
  | not part => exact List.mem_singleton.mp mem ▸ .not part
  | atom t => exact List.mem_singleton.mp mem ▸ .atom t

theorem grouped_connect (conjunction : Bool) {parts : List Clause} (h : ∀ c ∈ parts, c.Grouped) :
    (connect conjunction parts).Grouped := by
  have kept : ∀ d ∈ parts.flatMap (flatten conjunction), d.Grouped := by
    intro d mem
    obtain ⟨c, hc, mem⟩ := List.mem_flatMap.mp mem
    exact grouped_of_mem_flatten (h c hc) mem
  unfold connect
  split
  · exact .constant _
  · generalize parts.flatMap (flatten conjunction) = ds at kept ⊢
    match ds with
    | [] => exact .constant _
    | [d] => exact kept d (by simp)
    | d :: e :: ds =>
      cases conjunction with
      | true => exact .all (by simp) kept
      | false => exact .any (by simp) kept

end Clause

theorem lowerParts_eq_map (negated : Bool) (parts : List Formula) :
    lowerParts negated parts = parts.map (lower negated) := by
  induction parts with
  | nil => rfl
  | cons f rest ih => rw [lowerParts, ih, List.map_cons]

/-- A choice among no values is lowered to what it means on every value. -/
theorem lowerTest_choice {t : FieldTest} (choice : isEmptyChoice t.test) (negated : Bool) :
    ∃ value, (lowerTest negated t).clause = .constant value ∧ isExpressible t.test ∧
      asksForValues t.test = false ∧ ∀ v, t.test.holds v = value := by
  obtain ⟨name, test⟩ := t
  cases test <;> simp [isEmptyChoice] at choice <;> subst choice
  · exact ⟨false, rfl, rfl, rfl, fun _ => rfl⟩
  · exact ⟨true, rfl, rfl, rfl, fun _ => rfl⟩

theorem lowerTest_clause {t : FieldTest} (choice : isEmptyChoice t.test = false) (negated : Bool) :
    (lowerTest negated t).clause =
      if isExpressible t.test then .atom t else .constant !negated := by
  unfold lowerTest
  split
  · simp_all [isEmptyChoice]
  · simp_all [isEmptyChoice]
  · split <;> rfl

theorem grouped_lower (negated : Bool) (f : Formula) : (lower negated f).clause.Grouped := by
  induction f generalizing negated with
  | all parts ih | any parts ih =>
    rw [lower, lowerParts_eq_map]
    apply Clause.grouped_connect
    simpa using fun g hg => ih g hg negated
  | not part ih => exact (ih (!negated)).negate
  | field t =>
    rw [lower]
    cases choice : isEmptyChoice t.test with
    | true =>
      obtain ⟨value, clause, -⟩ := lowerTest_choice choice negated
      rw [clause]
      exact .constant value
    | false =>
      rw [lowerTest_clause choice]
      split
      · exact .atom t
      · exact .constant _

/-! ### Residuals -/

def Residual.ofTest (p : FieldTest × Bool) : Residual := ⟨p.1.field, p.1.document, p.2⟩

theorem lowerTest_residuals (negated : Bool) (t : FieldTest) :
    (lowerTest negated t).residuals =
      if isExpressible t.test then [] else [Residual.ofTest (t, negated)] := by
  unfold lowerTest
  split
  · rename_i h
    rw [h]
    rfl
  · rename_i h
    rw [h]
    rfl
  · split <;> rfl

/-- The residuals are the tests that SQL cannot express, from left to right. -/
theorem lower_residuals (negated : Bool) (f : Formula) :
    (lower negated f).residuals =
      ((f.tests negated).filter fun p => !isExpressible p.1.test).map Residual.ofTest := by
  induction f generalizing negated with
  | all parts ih | any parts ih =>
    simp only [lower, lowerParts_eq_map, Formula.tests_all, Formula.tests_any, List.filter_flatMap,
      List.map_flatMap, List.flatMap_map]
    exact List.flatMap_congr fun f hf => ih f hf negated
  | not part ih => rw [lower, Formula.tests_not, ← ih]
  | field t =>
    rw [lower, lowerTest_residuals, Formula.tests_field]
    by_cases h : isExpressible t.test <;> simp [h]

theorem isExpressible_of_exact {negated : Bool} {f : Formula}
    (exact : (lower negated f).residuals = []) {p : FieldTest × Bool} (h : p ∈ f.tests negated) :
    isExpressible p.1.test := by
  rw [lower_residuals, List.map_eq_nil_iff, List.filter_eq_nil_iff] at exact
  simpa using exact p h

/-! ### Evaluation -/

namespace Clause

/-- The truth values of clauses give the constants and the connectives their meaning. -/
structure Evaluates (e : Clause → Truth) : Prop where
  constant : ∀ value, e (constant value) = .ofBool value
  all : ∀ parts, e (all parts) = .join true (parts.map e)
  any : ∀ parts, e (any parts) = .join false (parts.map e)
  not : ∀ part, e (not part) = (e part).not

namespace Evaluates

variable {e : Clause → Truth} (h : Evaluates e)

include h

theorem negate (c : Clause) : e c.negate = (e c).not := by
  cases c <;> simp [Clause.negate, h.constant, h.not]

theorem flatten {conjunction : Bool} {c : Clause} (kept : c.isConstant (!conjunction) = false) :
    Truth.join conjunction ((c.flatten conjunction).map e) = e c := by
  cases c with
  | constant value =>
    have value : value = conjunction := by simpa [isConstant] using kept
    rw [Clause.flatten, List.map_nil, Truth.join_nil, h.constant, value]
  | all parts => cases conjunction <;> simp [Clause.flatten, h.all]
  | any parts => cases conjunction <;> simp [Clause.flatten, h.any]
  | not part => simp [Clause.flatten]
  | atom t => simp [Clause.flatten]

theorem flatMap {conjunction : Bool} {parts : List Clause}
    (kept : ∀ c ∈ parts, c.isConstant (!conjunction) = false) :
    Truth.join conjunction ((parts.flatMap (Clause.flatten conjunction)).map e) =
      Truth.join conjunction (parts.map e) := by
  induction parts with
  | nil => rfl
  | cons c rest ih =>
    obtain ⟨hc, hrest⟩ := List.forall_mem_cons.mp kept
    rw [List.flatMap_cons, List.map_append, Truth.join_append, h.flatten hc, ih hrest,
      List.map_cons, Truth.join_cons]

/-- Folding constants and flattening keep the truth of a connective. -/
theorem connect (conjunction : Bool) (parts : List Clause) :
    e (Clause.connect conjunction parts) = Truth.join conjunction (parts.map e) := by
  unfold Clause.connect
  split
  case isTrue constant =>
    obtain ⟨c, hc, constant⟩ := List.any_eq_true.mp constant
    have truth : e c = .ofBool !conjunction := by
      cases c <;> simp [isConstant] at constant
      rw [h.constant, constant]
    rw [h.constant, eq_comm, Truth.join_eq_not_iff, ← truth]
    exact List.mem_map_of_mem hc
  case isFalse kept =>
    have kept : ∀ c ∈ parts, c.isConstant (!conjunction) = false := by
      rw [Bool.not_eq_true, List.any_eq_false] at kept
      simpa only [Bool.not_eq_true] using kept
    rw [← h.flatMap kept]
    match parts.flatMap (Clause.flatten conjunction) with
    | [] => simp [h.constant]
    | [c] => simp
    | _ :: _ :: _ => cases conjunction <;> simp [h.all, h.any]

/-- A clause is true exactly when verdicts on the tests make its formula so, if that holds of the
tests; under an odd number of negations, it is false exactly when they do not. -/
theorem lower {verdict : Bool → FieldTest → Bool}
    (tests : ∀ negated t, e (lowerTest negated t).clause = .ofBool (!negated) ↔
      verdict negated t = !negated) (negated : Bool) (f : Formula) :
    e (Sql.lower negated f).clause = .ofBool (!negated) ↔ f.judge verdict negated = !negated := by
  induction f generalizing negated with
  | all parts ih =>
    rw [Sql.lower, lowerParts_eq_map, h.connect, List.map_map, List.map_map, Formula.judge_all]
    exact Truth.join_true_map fun f hf => ih f hf negated
  | any parts ih =>
    rw [Sql.lower, lowerParts_eq_map, h.connect, List.map_map, List.map_map, Formula.judge_any]
    exact Truth.join_false_map fun f hf => ih f hf negated
  | not part ih =>
    rw [Sql.lower, Formula.judge_not, h.negate, Truth.not_eq_ofBool_iff, ih (!negated)]
    cases part.judge verdict (!negated) <;> simp
  | field t => rw [Sql.lower, Formula.judge_field, tests]

end Evaluates

theorem evaluates_truth (row : Row) : Evaluates (truth row) :=
  ⟨truth_constant row, truth_all row, truth_any row, truth_not row⟩

end Clause

/-! ### Truth on rows -/

/-- The verdict of SQL on a test: one that it leaves unknown counts against the row, and one that it
cannot express for it. -/
def certain (row : Row) (negated : Bool) (t : FieldTest) : Bool :=
  if isExpressible t.test then if isUnknown row t then negated else t.holds row.fields
  else !negated

theorem truth_lowerTest (row : Row) (negated : Bool) (t : FieldTest) :
    (lowerTest negated t).clause.truth row = .ofBool (!negated) ↔
      certain row negated t = !negated := by
  have ofBool : ∀ b, Truth.ofBool b = .ofBool (!negated) ↔ b = !negated := by
    cases negated <;> decide
  cases choice : isEmptyChoice t.test with
  | true =>
    obtain ⟨value, clause, expressible, asks, holds⟩ := lowerTest_choice choice negated
    have known : isUnknown row t = false := by rw [isUnknown, asks, Bool.and_false]
    rw [clause, Clause.truth_constant, ofBool, certain, if_pos expressible, known,
      if_neg Bool.false_ne_true, FieldTest.holds, holds]
  | false =>
    rw [lowerTest_clause choice, certain]
    split
    case isTrue expressible =>
      rw [Clause.truth_atom, truth_ofTest row expressible choice, testTruth]
      split
      · cases negated <;> decide
      · rw [ofBool]
    case isFalse => rw [Clause.truth_constant]; simp

/-- The clause is true of a row exactly when the verdicts of SQL make the formula so. -/
theorem truth_lower (row : Row) (negated : Bool) (f : Formula) :
    (lower negated f).clause.truth row = .ofBool (!negated) ↔
      f.judge (certain row) negated = !negated :=
  (Clause.evaluates_truth row).lower (truth_lowerTest row) negated f

end Sql

end AccessRules

import AccessRules.Proofs.Filter.Admission
import AccessRules.Proofs.Sql.Lowering

/-! The rows that a fragment selects, those of which its text, read with its parameters, is true. An
exact fragment selects no row that the query does not admit. A row that the query admits is selected
unless SQL leaves a test on a null column unknown that holds in memory, or that fails there under a
negation. -/

namespace AccessRules

namespace Sql

/-- What the clause of a fragment makes of a row; nothing when the clause cannot be read. -/
def Fragment.truth? (f : Fragment) (row : Row) : Option Truth := f.condition?.map (·.truth row)

theorem condition?_ofFormula (options : Options) (f : Formula) :
    (Fragment.ofFormula options f).condition? = some (lower false f).clause.condition := by
  rw [Fragment.condition?, Fragment.ofFormula]
  simp only
  rw [read?_write, Clause.ofTokens?_tokens (grouped_lower false f)]

/-- The clause of a fragment can be read, and is true of the rows of which the clause is that the
formula was lowered to. -/
theorem truth?_ofFormula (options : Options) (f : Formula) (row : Row) :
    (Fragment.ofFormula options f).truth? row = some ((lower false f).clause.truth row) := by
  rw [Fragment.truth?, condition?_ofFormula]
  rfl

/-- A test that SQL can express gets no wider a verdict from SQL than it has in memory. -/
theorem certain_narrows (row : Row) (negated : Bool) {t : FieldTest}
    (expressible : isExpressible t.test) :
    Formula.Widens negated (certain row negated t) (t.holds row.fields) := by
  rw [certain, if_pos expressible]
  cases isUnknown row t <;> cases negated <;> simp [Formula.Widens]

theorem holds_of_certain {f : Formula} {options : Options} {row : Row}
    (exact : (Fragment.ofFormula options f).isExact) (judged : f.judge (certain row) false) :
    f.holds row.fields := by
  have residuals : (lower false f).residuals = [] := List.isEmpty_iff.mp exact
  have widens : Formula.Widens false (f.judge (certain row) false)
      (f.judge (fun _ t => t.holds row.fields) false) :=
    Formula.judge_widens fun p hp =>
      certain_narrows row p.2 (isExpressible_of_exact residuals hp)
  rw [Formula.judge_holds] at widens
  exact widens judged

/-- Whether SQL leaves a test unknown that counts for the row in memory: one that holds, or that
fails under an odd number of negations. -/
def isOverlooked (row : Row) (negated : Bool) (t : FieldTest) : Bool :=
  isExpressible t.test && isUnknown row t && t.holds row.fields != negated

theorem certain_widens {row : Row} {negated : Bool} {t : FieldTest}
    (seen : isOverlooked row negated t = false) :
    Formula.Widens negated (t.holds row.fields) (certain row negated t) := by
  unfold isOverlooked at seen
  unfold certain
  cases expressible : isExpressible t.test with
  | false => cases negated <;> simp [Formula.Widens]
  | true =>
    cases unknown : isUnknown row t with
    | false => cases negated <;> simp [Formula.Widens]
    | true =>
      have holds : t.holds row.fields = negated := by simpa [expressible, unknown] using seen
      cases negated <;> simp [Formula.Widens, holds]

theorem certain_of_holds {f : Formula} {row : Row}
    (seen : ∀ p ∈ f.tests false, isOverlooked row p.2 p.1 = false) (holds : f.holds row.fields) :
    f.judge (certain row) false := by
  have widens : Formula.Widens false (f.judge (fun _ t => t.holds row.fields) false)
      (f.judge (certain row) false) :=
    Formula.judge_widens fun p hp => certain_widens (seen p hp)
  rw [Formula.judge_holds] at widens
  exact widens holds

end Sql

/-! ### Queries -/

/-- An exact fragment is true of no row that the query does not admit, and so of none on which the
action is not allowed. -/
theorem Ability.admits_of_exact_fragment {a : Ability} {action type : String} {q : Query}
    (query : a.query? action type = some q) {options : Sql.Options}
    (exact : (q.fragment options).isExact) (row : Sql.Row) :
    ∃ truth, (q.fragment options).truth? row = some truth ∧
      (truth = .true → q.admits row.fields ∧ a.can action (.item type row.fields)) := by
  refine ⟨_, Sql.truth?_ofFormula options q.formula row, fun selected => ?_⟩
  have judged := (Sql.truth_lower row false q.formula).mp selected
  have admits : q.admits row.fields := Sql.holds_of_certain exact judged
  exact ⟨admits, ((query_admits_iff row.fields query).mp admits).1⟩

/-- A row without a status is selected through the null among the statuses that are asked for. -/
theorem Ability.admits_of_exact_fragment_missing_status :
    let a : Ability := ⟨[
      (Rule.allow "read" "T").under [("status", .object [("$in", .list [.text "new", .null])])],
      (Rule.deny "read" "T").under [("owner", .object [("$ne", .text "u")])]], false⟩
    let row : Sql.Row := ⟨[("owner", .text "u")], by decide⟩
    ∃ q, a.query? "read" "T" = some q ∧ (q.fragment {}).isExact ∧
      (q.fragment {}).truth? row = some .true ∧
      q.admits row.fields ∧ a.can "read" (.item "T" row.fields) := by
  intro a row
  refine ⟨_, rfl, rfl, ?_, ?_⟩
  · rw [Query.fragment, Sql.truth?_ofFormula]
    rfl
  · obtain ⟨truth, read, sound⟩ := @admits_of_exact_fragment a "read" "T" _ rfl {} rfl row
    rw [Query.fragment, Sql.truth?_ofFormula] at read
    exact sound (Option.some.inj read).symm

/-- A fragment, exact or not, is true of a row exactly when the formula of the query is, judged by
the verdicts of SQL. It is true of every row that the query admits and of which SQL overlooks no
test. -/
theorem Query.fragment_selects_iff (q : Query) (options : Sql.Options) (row : Sql.Row) :
    ∃ truth, (q.fragment options).truth? row = some truth ∧
      (truth = .true ↔ q.formula.judge (Sql.certain row) false) ∧
      ((∀ p ∈ q.formula.tests false, Sql.isOverlooked row p.2 p.1 = false) →
        q.admits row.fields → truth = .true) := by
  have iff := Sql.truth_lower row false q.formula
  refine ⟨_, Sql.truth?_ofFormula options q.formula row, iff, fun seen admits => ?_⟩
  exact iff.mpr (Sql.certain_of_holds seen admits)

/-- A row without a status passes the test that it differs from one, which SQL leaves unknown. -/
theorem Query.fragment_overlooks_missing_status :
    let a : Ability :=
      ⟨[(Rule.allow "read" "T").under [("status", .object [("$ne", .text "x")])]], false⟩
    let row : Sql.Row := ⟨[], by decide⟩
    ∃ q, a.query? "read" "T" = some q ∧ q.admits row.fields ∧
      a.can "read" (.item "T" row.fields) ∧ (q.fragment {}).truth? row = some .unknown := by
  intro a row
  refine ⟨_, rfl, rfl, rfl, ?_⟩
  rw [Query.fragment, Sql.truth?_ofFormula]
  rfl

end AccessRules

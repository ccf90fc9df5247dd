import AccessRules.Proofs.Sql.Selection

/-! What a lowered clause means in memory, where each test that it keeps means what it means in the
formula. The clause of a formula admits whatever the formula does; under an odd number of negations
it admits no more. Without residuals the two agree, whatever the fields are. -/

namespace AccessRules

namespace Sql

namespace Clause

mutual

/-- Whether the fields satisfy the clause. -/
def holds (fields : Document) : Clause → Bool
  | constant value => value
  | all parts => allHold fields parts
  | any parts => anyHolds fields parts
  | not part => !holds fields part
  | atom t => t.holds fields

def allHold (fields : Document) : List Clause → Bool
  | [] => true
  | c :: rest => holds fields c && allHold fields rest

def anyHolds (fields : Document) : List Clause → Bool
  | [] => false
  | c :: rest => holds fields c || anyHolds fields rest

end

theorem holds_all (fields : Document) (parts : List Clause) :
    (all parts).holds fields = parts.all (holds fields) := by
  rw [holds]
  induction parts with
  | nil => rfl
  | cons c rest ih => rw [allHold, ih, List.all_cons]

theorem holds_any (fields : Document) (parts : List Clause) :
    (any parts).holds fields = parts.any (holds fields) := by
  rw [holds]
  induction parts with
  | nil => rfl
  | cons c rest ih => rw [anyHolds, ih, List.any_cons]

/-- What holds in memory is a truth value that is never unknown. -/
theorem evaluates_holds (fields : Document) : Evaluates fun c => .ofBool (c.holds fields) where
  constant value := by rw [holds]
  all parts := by rw [holds_all, Truth.join_ofBool, if_pos rfl]
  any parts := by rw [holds_any, Truth.join_ofBool, if_neg Bool.false_ne_true]
  not part := by rw [holds, Truth.not_ofBool]

end Clause

/-! ### Lowering -/

section Widening

variable (fields : Document) (negated : Bool)

/-- What lowering makes of a test: it stands if SQL can express it, and if not, the constant that
admits the more stands in its place. -/
def kept (fields : Document) (negated : Bool) (t : FieldTest) : Bool :=
  if isExpressible t.test then t.holds fields else !negated

theorem holds_lowerTest (t : FieldTest) :
    (lowerTest negated t).clause.holds fields = kept fields negated t := by
  cases choice : isEmptyChoice t.test with
  | true =>
    obtain ⟨value, clause, expressible, -, holds⟩ := lowerTest_choice choice negated
    rw [clause, Clause.holds, kept, if_pos expressible, FieldTest.holds, holds]
  | false =>
    rw [lowerTest_clause choice, kept]
    split <;> rw [Clause.holds]

theorem holds_lower (f : Formula) :
    (lower negated f).clause.holds fields = f.judge (kept fields) negated := by
  have ofBool : ∀ b c, Truth.ofBool b = .ofBool c ↔ b = c := by decide
  have tests : ∀ negated t, Truth.ofBool ((lowerTest negated t).clause.holds fields) =
      .ofBool (!negated) ↔ kept fields negated t = !negated := by
    intro negated t
    rw [holds_lowerTest, ofBool]
  have iff := (Clause.evaluates_holds fields).lower tests negated f
  rw [ofBool] at iff
  have eq_of_iff : ∀ b c d : Bool, (b = d ↔ c = d) → b = c := by decide
  exact eq_of_iff _ _ _ iff

/-- The constant in the place of a test is true under an even number of negations and false under an
odd one, so what is admitted gets wider in the one case and narrower in the other. -/
theorem widens_lower (f : Formula) :
    Formula.Widens negated (f.holds fields) ((lower negated f).clause.holds fields) := by
  rw [holds_lower, ← Formula.judge_holds fields negated]
  apply Formula.judge_widens
  intro p _
  unfold kept
  split
  · cases p.2 <;> exact id
  · cases p.2 <;> simp [Formula.Widens]

/-- A formula of which no test is left out means what its clause means. -/
theorem holds_lower_of_exact {f : Formula} (exact : (lower negated f).residuals = []) :
    (lower negated f).clause.holds fields = f.holds fields := by
  rw [holds_lower, ← Formula.judge_holds fields negated]
  apply Formula.judge_congr
  intro p hp
  rw [kept, if_pos (isExpressible_of_exact exact hp)]

end Widening

/-! ### Constant clauses -/

/-- A clause is read as a constant when it is one, or a test that is not understood, which never
holds. -/
theorem holds_of_condition {value : Bool} {c : Clause} (h : c.condition = .constant value)
    (fields : Document) : c.holds fields = value := by
  cases c with
  | constant v =>
    rw [Clause.condition, Condition.constant.injEq] at h
    rw [Clause.holds, h]
  | all parts | any parts | not part => simp [Clause.condition] at h
  | atom t =>
    obtain ⟨name, test⟩ := t
    cases test with
    | unsupported operator whole =>
      simp only [Clause.condition, Condition.ofTest, Condition.constant.injEq] at h
      rw [← h]
      rfl
    | equals v | differs v => cases v <;> simp [Clause.condition, Condition.ofTest] at h
    | present expected => cases expected <;> simp [Clause.condition, Condition.ofTest] at h
    | oneOf items | noneOf items =>
      unfold Clause.condition Condition.ofTest Condition.membership at h
      simp only at h
      split at h
      · contradiction
      · split at h <;> simp at h
    | _ => simp [Clause.condition, Condition.ofTest] at h

/-- The words for the constants are read as the constants, and with no parameters only. -/
theorem read?_constant {value : Bool} {params : List Value} {c : Condition}
    (h : Condition.read? (if value then "true" else "false") params = some c) :
    c = .constant value := by
  cases params with
  | nil => cases value <;> exact (Option.some.inj h).symm
  | cons v rest => cases value <;> cases h

theorem holds_of_clause_eq {options : Options} {f : Formula} (value : Bool)
    (h : (Fragment.ofFormula options f).clause = if value then "true" else "false")
    (fields : Document) : (lower false f).clause.holds fields = value := by
  have read := condition?_ofFormula options f
  rw [Fragment.condition?, h] at read
  exact holds_of_condition (read?_constant read) fields

/-- The clause that a formula is lowered to holds wherever the formula does, and under an odd number
of negations nowhere else. The two agree if no test is left out. A fragment that is the constant
false admits nothing, and an exact one that is the constant true admits everything. -/
theorem lower_widens (f : Formula) (fields : Document) :
    (f.holds fields → (lower false f).clause.holds fields) ∧
      ((lower true f).clause.holds fields → f.holds fields) ∧
      (∀ negated, (lower negated f).residuals = [] →
        (lower negated f).clause.holds fields = f.holds fields) ∧
      ∀ options,
        ((Fragment.ofFormula options f).clause = "false" → f.holds fields = false) ∧
        ((Fragment.ofFormula options f).clause = "true" →
          (Fragment.ofFormula options f).isExact → f.holds fields = true) := by
  have widens : f.holds fields → (lower false f).clause.holds fields := widens_lower fields false f
  refine ⟨widens, widens_lower fields true f, fun negated exact => ?_, fun options => ⟨?_, ?_⟩⟩
  · exact holds_lower_of_exact fields negated exact
  · intro clause
    have none : (lower false f).clause.holds fields = false :=
      holds_of_clause_eq false clause fields
    rw [← Bool.not_eq_true]
    intro holds
    rw [widens holds] at none
    contradiction
  · intro clause exact
    have every : (lower false f).clause.holds fields = true :=
      holds_of_clause_eq true clause fields
    rw [← every, holds_lower_of_exact fields false (List.isEmpty_iff.mp exact)]

end Sql

end AccessRules

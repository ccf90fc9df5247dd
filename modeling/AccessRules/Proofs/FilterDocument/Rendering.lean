import AccessRules.Proofs.Filter.Admission
import AccessRules.Proofs.FilterDocument.Meaning
import AccessRules.Proofs.Formula.Polarity

/-! The document of a formula asks for what the formula means, and that of a filter for what the
filter means, where the names of the fields do not read as operators and the tests compare with
values. A comparison is read back from its operator, under a negation as well. -/

namespace AccessRules

/-- Whether a test compares a field with values, in a way that is understood. -/
def Test.isComparison : Test → Bool
  | present _ => false
  | unsupported _ _ => false
  | _ => true

/-- Whether a test compares a field of which the name does not read as an operator. -/
def FieldTest.isPlain (t : FieldTest) : Bool := !isOperatorName t.field && t.test.isComparison

/-- A test compares a field with values, and no connective has the name of the field. -/
structure FieldTest.Compares (t : FieldTest) : Prop where
  field : Connective.ofKey? t.field = none
  comparison : t.test.isComparison

theorem FieldTest.compares_of_isPlain {t : FieldTest} (plain : t.isPlain) : t.Compares := by
  obtain ⟨name, comparison⟩ := Bool.and_eq_true_iff.mp plain
  exact ⟨Connective.ofKey?_eq_none_of_field (by simpa using name), comparison⟩

/-! ### Tests -/

/-- A comparison is one operator other than negation, which is understood as the comparison. -/
theorem Test.operators_of_comparison {test : Test} (h : test.isComparison) :
    ∃ operator operand, test.operators = .object [(operator, operand)] ∧
      isOperatorName operator ∧ operator ≠ "$not" ∧ ofOperator? operator operand = some test := by
  cases test with
  | present expected | unsupported operator whole => contradiction
  | _ => exact ⟨_, _, rfl, by decide, by decide, rfl⟩

theorem Test.fieldValue_of_comparison {test : Test} (h : test.isComparison) :
    test.fieldValue = test.operators ∨
      test = .equals test.fieldValue ∧ test.fieldValue.isOperators = false := by
  cases test with
  | equals v =>
    cases operators : v.isOperators with
    | true => exact .inl (by rw [fieldValue, if_pos operators])
    | false => exact .inr (by simp [fieldValue, operators])
  | present expected | unsupported operator whole => contradiction
  | _ => exact .inl rfl

namespace Formula

variable (field : String)

theorem ofOperator_of_ne {operator : String} (ne : operator ≠ "$not") (operand : Value) :
    ofOperator field operator operand = ofSimple field operator operand := by
  cases operand <;> rw [ofOperator, if_neg ne]
  all_goals simp

theorem ofOperators_operators {test : Test} (h : test.isComparison) :
    ∃ d, test.operators = .object d ∧ Document.isOperators d ∧
      ofOperators field d = .ok [.field ⟨field, test⟩] := by
  obtain ⟨operator, operand, operators, name, ne, understood⟩ := Test.operators_of_comparison h
  refine ⟨[(operator, operand)], operators, by simp [Document.isOperators, name], ?_⟩
  rw [ofOperators, ofOperator_of_ne field ne, ofSimple, understood, ofOperators]
  rfl

theorem ofField_literal {v : Value} (literal : v.isOperators = false) :
    ofField field v = .field ⟨field, .equals v⟩ := by
  cases v with
  | object d => rw [ofField, if_neg (by simpa [Value.isOperators] using literal)]
  | _ => rfl

theorem ofField_fieldValue {test : Test} (h : test.isComparison) :
    ofField field test.fieldValue = .field ⟨field, test⟩ := by
  rcases Test.fieldValue_of_comparison h with same | ⟨equals, literal⟩
  · obtain ⟨d, object, operators, read⟩ := ofOperators_operators field h
    rw [same, object, ofField, if_pos operators, read]
    rfl
  · rw [ofField_literal field literal, ← equals]

theorem ofField_not {test : Test} (h : test.isComparison) :
    ofField field (.object [("$not", test.operators)]) = .not (.field ⟨field, test⟩) := by
  obtain ⟨d, object, operators, read⟩ := ofOperators_operators field h
  have name : Document.isOperators [("$not", .object d)] := by simp [Document.isOperators]; rfl
  rw [object, ofField, if_pos name, ofOperators, ofOperator, if_pos rfl, if_pos operators, read]
  rfl

end Formula

/-! ### Formulas -/

section Documents

variable (fields : Document)

theorem FieldTest.isMet_document {t : FieldTest} (compares : t.Compares) :
    Document.isMet fields t.document = t.holds fields := by
  rw [document, Document.isMet, Document.isMet, Bool.and_true,
    Document.entryMet_field fields compares.field,
    Formula.ofField_fieldValue _ compares.comparison, Formula.holds_field]

theorem FieldTest.isMet_not {t : FieldTest} (compares : t.Compares) :
    Document.isMet fields [(t.field, .object [("$not", t.test.operators)])] = !t.holds fields := by
  rw [Document.isMet, Document.isMet, Bool.and_true,
    Document.entryMet_field fields compares.field, Formula.ofField_not _ compares.comparison,
    Formula.holds_not, Formula.holds_field]

/-- The document of the test is met, and that of its negation is not, as the verdict says. -/
structure FieldTest.RendersAs (t : FieldTest) (verdict : Bool) : Prop where
  document : Document.isMet fields t.document = verdict
  negation : Document.isMet fields [(t.field, .object [("$not", t.test.operators)])] = !verdict

theorem FieldTest.rendersAs_of_compares {t : FieldTest} (compares : t.Compares) :
    t.RendersAs fields (t.holds fields) :=
  ⟨isMet_document fields compares, isMet_not fields compares⟩

namespace Formula

theorem documents_eq_map (parts : List Formula) : documents parts = parts.map document := by
  induction parts with
  | nil => rfl
  | cons f rest ih => rw [documents, ih, List.map_cons]

theorem all_documents {parts : List Formula} {value : Formula → Bool}
    (h : ∀ f ∈ parts, Document.isMet fields f.document = value f) :
    (documents parts).all (Document.isMet fields) = parts.all value := by
  rw [documents_eq_map, List.all_map, Bool.eq_iff_iff, List.all_eq_true, List.all_eq_true]
  exact forall₂_congr fun f hf => by rw [Function.comp_apply, h f hf]

theorem any_documents {parts : List Formula} {value : Formula → Bool}
    (h : ∀ f ∈ parts, Document.isMet fields f.document = value f) :
    (documents parts).any (Document.isMet fields) = parts.any value := by
  rw [documents_eq_map, List.any_map, Bool.eq_iff_iff, List.any_eq_true, List.any_eq_true]
  exact exists_congr fun f => and_congr_right fun hf => by rw [Function.comp_apply, h f hf]

theorem isMet_any (parts : List Formula) :
    Document.isMet fields (any parts).document = (documents parts).any (Document.isMet fields) := by
  cases parts with
  | nil => exact Document.isMet_unsatisfiable fields
  | cons f rest => exact Document.isMet_or fields (documents (f :: rest))

section Verdicts

variable {verdict : FieldTest → Bool} {negated : Bool}

theorem isMet_not {part : Formula}
    (renders : ∀ p ∈ part.tests negated, p.1.RendersAs fields (verdict p.1))
    (h : Document.isMet fields part.document = part.judge (fun _ => verdict) negated) :
    Document.isMet fields (not part).document = !part.judge (fun _ => verdict) negated := by
  cases part with
  | field t =>
    rw [judge_field]
    exact (renders (t, negated) (by simp)).negation
  | all parts | any parts | not part =>
    rw [document, Document.isMet_nor, List.any_cons, h, List.any_nil, Bool.or_false]
    simp

/-- The document of a formula asks for the formula under the verdicts that its tests render as. -/
theorem isMet_document_of_verdicts {f : Formula}
    (renders : ∀ p ∈ f.tests negated, p.1.RendersAs fields (verdict p.1)) :
    Document.isMet fields f.document = f.judge (fun _ => verdict) negated := by
  induction f generalizing negated with
  | all parts ih =>
    rw [tests_all] at renders
    have met : ∀ f ∈ parts,
        Document.isMet fields f.document = f.judge (fun _ => verdict) negated :=
      fun f hf => ih f hf fun p hp => renders p (List.mem_flatMap.mpr ⟨f, hf, hp⟩)
    rw [document, Document.isMet_conjunction, all_documents fields met, judge_all]
  | any parts ih =>
    rw [tests_any] at renders
    have met : ∀ f ∈ parts,
        Document.isMet fields f.document = f.judge (fun _ => verdict) negated :=
      fun f hf => ih f hf fun p hp => renders p (List.mem_flatMap.mpr ⟨f, hf, hp⟩)
    rw [isMet_any, any_documents fields met, judge_any]
  | not part ih =>
    rw [tests_not] at renders
    rw [isMet_not fields renders (ih renders), judge_not]
  | field t =>
    rw [document, judge_field]
    exact (renders (t, negated) (by simp)).document

end Verdicts

theorem isMet_document_of_compares {negated : Bool} {f : Formula}
    (compares : ∀ p ∈ f.tests negated, p.1.Compares) :
    Document.isMet fields f.document = f.holds fields := by
  rw [← judge_holds fields negated f]
  refine isMet_document_of_verdicts fields fun p hp => ?_
  exact FieldTest.rendersAs_of_compares fields (compares p hp)

theorem isMet_document {negated : Bool} {f : Formula}
    (plain : ∀ p ∈ f.tests negated, p.1.isPlain) :
    Document.isMet fields f.document = f.holds fields :=
  isMet_document_of_compares fields fun p hp => FieldTest.compares_of_isPlain (plain p hp)

end Formula

/-! ### Filters -/

namespace Filter

/-- The alternatives and the exceptions of a filter. -/
def formulas : Filter → List Formula
  | forbidden => []
  | select allow deny => allow.getD [] ++ deny

/-- The document of a filter asks for one of its alternatives, if it has a list of them, and for
none of its exceptions. -/
theorem isMet_select (allow : Option (List Formula)) (deny : List Formula) :
    Document.isMet fields (select allow deny).document =
      ((allow.all fun fs => (Formula.documents fs).any (Document.isMet fields)) &&
        !(Formula.documents deny).any (Document.isMet fields)) := by
  have alternatives : Document.isMet fields (Value.present "$or"
      (allow.map fun fs => .list (fs.map fun f => .object f.document))) =
        allow.all fun fs => (Formula.documents fs).any (Document.isMet fields) := by
    cases allow with
    | none => rfl
    | some fs =>
      have met := Document.isMet_or fields (Formula.documents fs)
      rw [Formula.documents_eq_map, List.map_map] at met
      rw [Option.all_some, Formula.documents_eq_map]
      exact met
  have exceptions : Document.isMet fields (if deny.isEmpty then []
      else [("$and", .list (deny.map fun f => .object (Document.nor [f.document])))]) =
        !(Formula.documents deny).any (Document.isMet fields) := by
    split
    case isTrue none =>
      rw [List.isEmpty_iff.mp none]
      rfl
    case isFalse =>
      have met := Document.isMet_and fields (deny.map fun f => Document.nor [f.document])
      rw [List.map_map, List.all_map] at met
      rw [Formula.documents_eq_map, List.any_map, List.not_any_eq_all_not]
      refine met.trans (List.all_congr rfl fun f => ?_)
      rw [Function.comp_apply, Document.isMet_nor, List.any_cons, List.any_nil, Bool.or_false]
      rfl
  rw [document, Document.isMet_append, alternatives, exceptions]

/-- The tests of a formula of the filter are tests of the filter, negated ones of an exception. -/
theorem tests_of_mem_formulas {filter : Filter} {f : Formula} (h : f ∈ filter.formulas) :
    ∃ negated, ∀ p ∈ f.tests negated, p ∈ filter.formula.tests false := by
  cases filter with
  | forbidden => simp [formulas] at h
  | select allow deny =>
    rcases List.mem_append.mp h with alternative | exception
    · cases allow with
      | none => simp at alternative
      | some fs =>
        refine ⟨false, fun p hp => ?_⟩
        rw [formula, Formula.tests_conjunction, List.flatMap_cons, Formula.tests_disjunction]
        exact List.mem_append_left _ (List.mem_flatMap.mpr ⟨f, alternative, hp⟩)
    · refine ⟨true, fun p hp => ?_⟩
      have mem : p ∈ (deny.map Formula.not).flatMap (Formula.tests false) :=
        List.mem_flatMap.mpr ⟨.not f, List.mem_map_of_mem exception, by simpa using hp⟩
      cases allow with
      | none =>
        rw [formula, Formula.tests_conjunction]
        exact mem
      | some fs =>
        rw [formula, Formula.tests_conjunction, List.flatMap_cons]
        exact List.mem_append_right _ mem

/-- The document of a filter means the filter where those of its formulas mean the formulas. -/
theorem isMet_document_of_formulas {filter : Filter}
    (met : ∀ f ∈ filter.formulas, Document.isMet fields f.document = f.holds fields) :
    Document.isMet fields filter.document = filter.formula.holds fields := by
  cases filter with
  | forbidden => rw [document, Document.isMet_unsatisfiable, holds_forbidden]
  | select allow deny =>
    have exceptions : ∀ f ∈ deny, Document.isMet fields f.document = f.holds fields :=
      fun f hf => met f (List.mem_append_right _ hf)
    rw [isMet_select, Formula.any_documents fields exceptions]
    cases allow with
    | none => rw [holds_select_none, Option.all_none, Bool.true_and]
    | some fs =>
      have alternatives : ∀ f ∈ fs, Document.isMet fields f.document = f.holds fields :=
        fun f hf => met f (List.mem_append_left _ hf)
      rw [holds_select_some, Option.all_some, Formula.any_documents fields alternatives]

theorem isMet_document {filter : Filter} (plain : ∀ p ∈ filter.formula.tests false, p.1.isPlain) :
    Document.isMet fields filter.document = filter.formula.holds fields := by
  refine isMet_document_of_formulas fields fun f hf => ?_
  obtain ⟨negated, tests⟩ := tests_of_mem_formulas hf
  exact Formula.isMet_document fields fun p hp => plain p (tests p hp)

end Filter

end Documents

/-- Where every test is a comparison on a plain field, the documents of formulas and of filters are
met by the fields that satisfy them. -/
theorem documents_mean (fields : Document) :
    (∀ f : Formula, (∀ p ∈ f.tests false, p.1.isPlain) →
      Document.isMet fields f.document = f.holds fields) ∧
    (∀ filter : Filter, (∀ p ∈ filter.formula.tests false, p.1.isPlain) →
      Document.isMet fields filter.document = filter.formula.holds fields) :=
  ⟨fun _ plain => Formula.isMet_document fields plain,
    fun _ plain => Filter.isMet_document fields plain⟩

/-- Tests on one field that merge into one object of operators, a negated one among them. -/
theorem documents_mean_merged :
    let test (t : Test) : Formula := .field ⟨"tags", t⟩
    let f : Formula := .all [test (.atLeast (.text "b")), test (.below (.text "d")),
      .not (test (.oneOf [.text "x", .null])), .not (.any [])]
    let fields : Document := [("tags", .text "c")]
    (∀ p ∈ f.tests false, p.1.isPlain) ∧ Document.isMet fields f.document = f.holds fields ∧
      f.holds fields := by
  intro test f fields
  have plain : ∀ p ∈ f.tests false, p.1.isPlain := by decide
  exact ⟨plain, (documents_mean fields).1 f plain, rfl⟩

end AccessRules

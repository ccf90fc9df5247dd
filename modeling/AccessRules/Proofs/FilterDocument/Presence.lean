import AccessRules.Proofs.FilterDocument.Rendering

/-! Presence in rendered documents. A document asks for presence through a comparison with null, and
a list meets a comparison through its items, while a field that has a list is present whatever the
items are. Main statement: the document of a formula means the formula except where a field that is
tested for presence has a list in which null occurs; there the document takes the field for absent
and the formula takes it for present. -/

namespace AccessRules

/-- Whether a field has a list in which null occurs. -/
def Value.hasNullItem : Option Value → Bool
  | some (list items) => items.any isNull
  | _ => false

namespace Value

theorem equal_null (v : Value) : v.equal null = v.isNull := by
  cases v <;> rfl

/-- Null is met by what is absent, and by a list through an item. -/
theorem meets_null (actual : Option Value) :
    meets actual null = (!isPresent actual || hasNullItem actual) := by
  rcases actual with - | v
  · rfl
  · cases v with
    | list items => exact List.any_congr rfl equal_null
    | _ => rfl

theorem isPresent_of_hasNullItem {actual : Option Value} (h : hasNullItem actual) :
    isPresent actual := by
  rcases actual with - | v
  · exact h
  · cases v <;> first | rfl | exact h

end Value

namespace Test

/-- The test that is asked in place of presence. -/
def throughNull : Test → Test
  | present true => differs .null
  | present false => equals .null
  | test => test

/-- Whether a test asks for presence, or for absence. -/
def asksPresence : Test → Bool
  | present _ => true
  | _ => false

variable (test : Test)

theorem operators_throughNull : test.throughNull.operators = test.operators := by
  cases test with
  | present expected => cases expected <;> rfl
  | _ => rfl

theorem fieldValue_throughNull : test.throughNull.fieldValue = test.fieldValue := by
  cases test with
  | present expected => cases expected <;> rfl
  | _ => rfl

variable {test}

theorem holds_throughNull_of_not_asksPresence (h : test.asksPresence = false)
    (actual : Option Value) : test.throughNull.holds actual = test.holds actual := by
  cases test with
  | present expected => contradiction
  | _ => rfl

/-- Presence and what is asked in its place differ on the lists in which null occurs, and only on
them. -/
theorem holds_throughNull_present_iff (expected : Bool) (actual : Option Value) :
    (present expected).throughNull.holds actual = (present expected).holds actual ↔
      Value.hasNullItem actual = false := by
  cases item : Value.hasNullItem actual with
  | true =>
    have there : Value.isPresent actual = true := Value.isPresent_of_hasNullItem item
    cases expected <;> simp [throughNull, holds, Value.meets_null, item, there]
  | false => cases expected <;> simp [throughNull, holds, Value.meets_null, item]

end Test

namespace FieldTest

/-- Whether a test is understood and the name of its field does not read as an operator. -/
def isReadable (t : FieldTest) : Bool :=
  !isOperatorName t.field && (t.test.isComparison || t.test.asksPresence)

/-- The test on the field that is asked in place of presence. -/
def throughNull (t : FieldTest) : FieldTest := ⟨t.field, t.test.throughNull⟩

variable {t : FieldTest}

theorem compares_throughNull (readable : t.isReadable) : t.throughNull.Compares := by
  refine compares_of_isPlain ?_
  obtain ⟨field, test⟩ := t
  obtain ⟨name, understood⟩ := Bool.and_eq_true_iff.mp readable
  refine Bool.and_eq_true_iff.mpr ⟨name, ?_⟩
  cases test with
  | present expected => cases expected <;> rfl
  | unsupported operator whole => contradiction
  | _ => rfl

theorem rendersAs_throughNull (fields : Document) (readable : t.isReadable) :
    t.RendersAs fields (t.throughNull.holds fields) := by
  have renders := rendersAs_of_compares fields (compares_throughNull readable)
  constructor
  · rw [← renders.document, document, document, throughNull, t.test.fieldValue_throughNull]
  · rw [← renders.negation, throughNull, t.test.operators_throughNull]

/-- The test does not ask for presence where the field has a list in which null occurs. -/
def ReadsAlike (t : FieldTest) (fields : Document) : Prop :=
  t.test.asksPresence → Value.hasNullItem (fields.get? t.field) = false

theorem holds_throughNull_iff (t : FieldTest) (fields : Document) :
    t.throughNull.holds fields = t.holds fields ↔ t.ReadsAlike fields := by
  obtain ⟨field, test⟩ := t
  cases asks : test.asksPresence with
  | false =>
    have same : test.throughNull.holds (fields.get? field) = test.holds (fields.get? field) :=
      Test.holds_throughNull_of_not_asksPresence asks (fields.get? field)
    exact iff_of_true same fun asked => absurd asked (by simp [asks])
  | true =>
    cases test with
    | present expected =>
      refine (Test.holds_throughNull_present_iff expected (fields.get? field)).trans ?_
      exact ⟨fun item _ => item, fun alike => alike rfl⟩
    | _ => contradiction

end FieldTest

namespace Formula

variable (fields : Document)

/-- The document of a formula asks for the formula with presence read through null. -/
theorem isMet_document_throughNull {negated : Bool} {f : Formula}
    (readable : ∀ p ∈ f.tests negated, p.1.isReadable) :
    Document.isMet fields f.document = f.judge (fun _ t => t.throughNull.holds fields) negated :=
  isMet_document_of_verdicts fields fun p hp =>
    FieldTest.rendersAs_throughNull fields (readable p hp)

theorem isMet_document_of_readsAlike {f : Formula}
    (readable : ∀ p ∈ f.tests false, p.1.isReadable)
    (alike : ∀ p ∈ f.tests false, p.1.ReadsAlike fields) :
    Document.isMet fields f.document = f.holds fields := by
  rw [isMet_document_throughNull fields readable, ← judge_holds fields false f]
  exact judge_congr fun p hp => (p.1.holds_throughNull_iff fields).mpr (alike p hp)

theorem isMet_document_field_iff {t : FieldTest} (readable : t.isReadable) :
    Document.isMet fields (field t).document = t.holds fields ↔ t.ReadsAlike fields := by
  rw [document, (FieldTest.rendersAs_throughNull fields readable).document]
  exact t.holds_throughNull_iff fields

end Formula

/-- The document of a test means the test exactly where presence is not asked of a list in which
null occurs, and the document of a formula means the formula wherever that is so of all its tests.
On such lists, and only on them, absence and equality with null differ. -/
theorem presence_documents_mean (fields : Document) :
    (∀ t : FieldTest, t.isReadable →
      (Document.isMet fields (Formula.field t).document = t.holds fields ↔
        t.ReadsAlike fields)) ∧
    (∀ f : Formula, (∀ p ∈ f.tests false, p.1.isReadable) →
      (∀ p ∈ f.tests false, p.1.ReadsAlike fields) →
        Document.isMet fields f.document = f.holds fields) ∧
    ∀ actual, (Test.present false).holds actual = (Test.equals .null).holds actual ↔
      Value.hasNullItem actual = false := by
  refine ⟨fun t readable => Formula.isMet_document_field_iff fields readable,
    fun f readable alike => Formula.isMet_document_of_readsAlike fields readable alike,
    fun actual => ?_⟩
  rw [eq_comm]
  exact Test.holds_throughNull_present_iff false actual

/-- Presence under negations and merged with a comparison, of a list, of null and of a field that is
missing. -/
theorem presence_documents_mean_tags :
    let test (field : String) (t : Test) : Formula := .field ⟨field, t⟩
    let f : Formula := .all [test "tags" (.present true), test "tags" (.noneOf [.text "x"]),
      .not (.any [test "archived" (.present true), .not (test "owner" (.present false))])]
    let fields : Document := [("tags", .list [.text "a", .list [.null]]), ("archived", .null)]
    (∀ p ∈ f.tests false, p.1.isReadable) ∧ (∀ p ∈ f.tests false, p.1.ReadsAlike fields) ∧
      Document.isMet fields f.document = f.holds fields ∧ f.holds fields = true := by
  intro test f fields
  have readable : ∀ p ∈ f.tests false, p.1.isReadable := by decide
  have alike : ∀ p ∈ f.tests false, p.1.ReadsAlike fields := by
    unfold FieldTest.ReadsAlike
    decide
  exact ⟨readable, alike, (presence_documents_mean fields).2.1 f readable alike, rfl⟩

/-- A list in which null occurs meets the document that asks for absence, and not the one that asks
for presence, although the field is there; equality with null holds of it. -/
theorem Formula.document_takes_null_item_for_absence :
    let absent : FieldTest := ⟨"tags", .present false⟩
    let there : FieldTest := ⟨"tags", .present true⟩
    let fields : Document := [("tags", .list [.null])]
    absent.isReadable ∧ there.isReadable ∧
      Document.isMet fields (Formula.field absent).document = true ∧ absent.holds fields = false ∧
      Document.isMet fields (Formula.field there).document = false ∧ there.holds fields = true ∧
      FieldTest.holds ⟨"tags", .equals .null⟩ fields = true := by
  decide

end AccessRules

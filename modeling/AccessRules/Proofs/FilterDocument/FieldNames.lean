import AccessRules.Proofs.FilterDocument.Rendering
import AccessRules.Proofs.Rule.Storage

/-! The documents of compiled rules. The keys of a condition document are names of fields, whatever
they look like, and they are keys of the rendered document too, where `$and`, `$or` and `$nor` are
connectives. Main statement: a query and its document admit the same subjects as long as no
condition has a connective for a key. A key that is one does act as it, in grants and denials. -/

namespace AccessRules

/-! ### Operators of a condition -/

/-- A document with keys, all of which start with `$`. -/
def Document.IsOperatorObject (d : Document) : Prop :=
  d ≠ [] ∧ ∀ key ∈ d.keys, ∃ name, key = "$" ++ name

theorem isOperatorName_iff {key : String} : isOperatorName key ↔ ∃ name, key = "$" ++ name := by
  rw [isOperatorName, beq_iff_eq, List.head?_eq_some_iff]
  constructor
  · rintro ⟨rest, chars⟩
    exact ⟨String.ofList rest, String.toList_inj.mp (by simp [chars])⟩
  · rintro ⟨name, rfl⟩
    exact ⟨name.toList, by simp⟩

theorem Document.isOperatorObject_iff {d : Document} : d.IsOperatorObject ↔ d.isOperators := by
  simp [IsOperatorObject, isOperators, keys, isOperatorName_iff]

instance (d : Document) : Decidable d.IsOperatorObject :=
  decidable_of_iff (d.isOperators = true) Document.isOperatorObject_iff.symm

mutual

/-- Whether an operator object asks for an operator, also under negations. -/
def Value.asksFor (operator : String) : Value → Bool
  | .object d => decide (Document.IsOperatorObject d) && Value.someAsksFor operator d
  | _ => false

def Value.someAsksFor (operator : String) : List (String × Value) → Bool
  | [] => false
  | (key, operand) :: rest =>
    key == operator || key == "$not" && operand.asksFor operator || someAsksFor operator rest

end

/-- Whether some field of a condition document is asked for an operator. -/
def Document.asksFor (operator : String) (d : Document) : Bool :=
  d.any fun entry => entry.2.asksFor operator

theorem Value.asksFor_operators {d : Document} (operators : d.isOperators) (operator : String) :
    (Value.object d).asksFor operator = Value.someAsksFor operator d := by
  rw [asksFor, decide_eq_true (Document.isOperatorObject_iff.mpr operators), Bool.true_and]

theorem Test.isComparison_of_operator {operator : String} {operand : Value} {test : Test}
    (h : ofOperator? operator operand = some test) (other : operator ≠ "$exists") :
    test.isComparison := by
  unfold ofOperator? at h
  split at h
  case h_5 => contradiction
  case h_10 => contradiction
  all_goals
    obtain rfl := Option.some.inj h
    rfl

namespace Formula

/-- Every test of the formula compares, under whatever negations. -/
def Compares (f : Formula) : Prop := ∀ negated, ∀ p ∈ f.tests negated, p.1.Compares

theorem Compares.not {f : Formula} (h : f.Compares) : (not f).Compares := by
  intro negated p hp
  rw [tests_not] at hp
  exact h _ p hp

theorem Compares.conjunction {parts : List Formula} (h : ∀ f ∈ parts, f.Compares) :
    (conjunction parts).Compares := by
  intro negated p hp
  rw [tests_conjunction] at hp
  obtain ⟨f, hf, hp⟩ := List.mem_flatMap.mp hp
  exact h f hf negated p hp

theorem ofOperator_not_literal (field : String) {operand : Value}
    (literal : operand.isOperators = false) :
    ofOperator field "$not" operand = .ok (.not (.field ⟨field, .equals operand⟩)) := by
  cases operand with
  | object inner =>
    have literal : ¬Document.isOperators inner := by simpa [Value.isOperators] using literal
    rw [ofOperator, if_pos rfl, if_neg literal]
  | _ => rw [ofOperator, if_pos rfl]; simp

section Comparisons

variable {field : String} (name : Connective.ofKey? field = none)

include name

theorem compares_field {test : Test} (comparison : test.isComparison) :
    (Formula.field ⟨field, test⟩).Compares := by
  intro negated p hp
  rw [tests_field, List.mem_singleton] at hp
  subst hp
  exact ⟨name, comparison⟩

theorem compares_ofSimple {operator : String} {operand : Value} {f : Formula}
    (h : ofSimple field operator operand = .ok f) (other : operator ≠ "$exists") :
    f.Compares := by
  unfold ofSimple at h
  split at h
  case h_1 test understood =>
    obtain rfl := Except.ok.inj h
    exact compares_field name (Test.isComparison_of_operator understood other)
  case h_2 => contradiction

theorem compares_ofOperator_literal {operator : String} {operand : Value} {f : Formula}
    (literal : operand.isOperators = false) (h : ofOperator field operator operand = .ok f)
    (other : operator ≠ "$exists") : f.Compares := by
  by_cases negation : operator = "$not"
  · subst negation
    rw [ofOperator_not_literal field literal] at h
    obtain rfl := Except.ok.inj h
    exact (compares_field name rfl).not
  · rw [ofOperator_of_ne field negation] at h
    exact compares_ofSimple name h other

end Comparisons

mutual

theorem compares_ofOperator {field operator : String} (name : Connective.ofKey? field = none) :
    ∀ {operand : Value} {f : Formula},
      ofOperator field operator operand = .ok f → operator ≠ "$exists" →
      (operator = "$not" → operand.asksFor "$exists" = false) → f.Compares
  | .object inner, f, h, other, unasked => by
    cases operators : Document.isOperators inner with
    | false =>
      have literal : (Value.object inner).isOperators = false := operators
      exact compares_ofOperator_literal name literal h other
    | true =>
      by_cases negation : operator = "$not"
      · rw [ofOperator, if_pos negation, if_pos operators] at h
        have unasked := unasked negation
        rw [Value.asksFor_operators operators] at unasked
        cases read : ofOperators field inner with
        | error e => rw [read] at h; contradiction
        | ok parts =>
          rw [read] at h
          obtain rfl := Except.ok.inj h
          exact (Compares.conjunction (compares_ofOperators name read unasked)).not
      · rw [ofOperator_of_ne field negation] at h
        exact compares_ofSimple name h other
  | .null, _, h, other, _ => compares_ofOperator_literal name rfl h other
  | .bool _, _, h, other, _ => compares_ofOperator_literal name rfl h other
  | .number _, _, h, other, _ => compares_ofOperator_literal name rfl h other
  | .text _, _, h, other, _ => compares_ofOperator_literal name rfl h other
  | .list _, _, h, other, _ => compares_ofOperator_literal name rfl h other

theorem compares_ofOperators {field : String} (name : Connective.ofKey? field = none) :
    ∀ {operators : List (String × Value)} {parts : List Formula},
      ofOperators field operators = .ok parts → Value.someAsksFor "$exists" operators = false →
      ∀ f ∈ parts, f.Compares
  | [], parts, h, _ => by
    obtain rfl := Except.ok.inj h
    simp
  | (operator, operand) :: rest, parts, h, unasked => by
    rw [Value.someAsksFor, Bool.or_eq_false_iff, Bool.or_eq_false_iff] at unasked
    obtain ⟨⟨other, operand_unasked⟩, rest_unasked⟩ := unasked
    rw [ofOperators] at h
    cases first : ofOperator field operator operand with
    | error e => rw [first] at h; contradiction
    | ok f =>
      cases others : ofOperators field rest with
      | error e => rw [first, others] at h; contradiction
      | ok fs =>
        rw [first, others] at h
        obtain rfl := Except.ok.inj h
        refine List.forall_mem_cons.mpr ⟨?_, compares_ofOperators name others rest_unasked⟩
        refine compares_ofOperator name first (by simpa using other) fun negation => ?_
        simpa [negation] using operand_unasked

end

end Formula

/-! ### Conditions -/

section Documents

variable {fields : Document}

/-- The document of the condition on a field asks for the condition. -/
theorem Formula.isMet_ofField {field : String} {value : Value}
    (name : Connective.ofKey? field = none) (unasked : value.asksFor "$exists" = false) :
    Document.isMet fields (Formula.ofField field value).document =
      (Formula.ofField field value).holds fields := by
  cases operators : value.isOperators with
  | false =>
    rw [ofField_literal field operators]
    exact isMet_document_of_compares fields (compares_field name rfl false)
  | true =>
    cases value with
    | object inner =>
      have operators : Document.isOperators inner := operators
      rw [Value.asksFor_operators operators] at unasked
      rw [ofField, if_pos operators]
      cases read : ofOperators field inner with
      | ok parts =>
        have compares := Compares.conjunction (compares_ofOperators name read unasked)
        exact isMet_document_of_compares fields (compares false)
      | error e =>
        have whole : (Test.unsupported e.name (.object inner)).fieldValue = .object inner := rfl
        rw [document, FieldTest.document, Document.isMet, Document.isMet, Bool.and_true,
          Document.entryMet_field fields name]
        rw [whole, ofField, if_pos operators, read]
    | _ => contradiction

theorem Formula.isMet_conjunction (parts : List Formula) :
    Document.isMet fields (Formula.conjunction parts).document =
      parts.all fun f => Document.isMet fields f.document := by
  unfold conjunction
  split
  · simp
  · rw [document, Document.isMet_conjunction, documents_eq_map, List.all_map]
    rfl

/-- The document of a condition asks for the condition, if no connective is a key of it. -/
theorem Formula.isMet_ofDocument {d : Document}
    (names : ∀ key ∈ d.keys, Connective.ofKey? key = none) (unasked : d.asksFor "$exists" = false) :
    Document.isMet fields (Formula.ofDocument d).document =
      (Formula.ofDocument d).holds fields := by
  rw [ofDocument, isMet_conjunction, holds_conjunction, List.all_map, List.all_map]
  rw [Bool.eq_iff_iff, List.all_eq_true, List.all_eq_true]
  refine forall₂_congr fun entry mem => ?_
  have entry_unasked : entry.2.asksFor "$exists" = false := by
    simpa using List.any_eq_false.mp unasked entry mem
  rw [Function.comp_apply, Function.comp_apply,
    isMet_ofField (names entry.1 (List.mem_map_of_mem mem)) entry_unasked]

end Documents

/-! ### Queries -/

/-- Every alternative and exception that is gathered is the formula of a document that is. -/
theorem Gathered.exists_document {skip : Bool} {rules : List Rule} {f : Formula}
    (held : ∀ r ∈ rules, r.Held)
    (h : f ∈ (ofRules skip rules).allow ++ (ofRules skip rules).deny) :
    ∃ d ∈ (ofRules skip rules).documents, f = Formula.ofDocument d := by
  induction rules with
  | nil => simp [ofRules] at h
  | cons r rest ih =>
    obtain ⟨first, others⟩ := List.forall_mem_cons.mp held
    cases active : r.activeCondition skip with
    | none =>
      rw [ofRules_unconditioned rest active] at h
      simp at h
    | some c =>
      have parsed : c.formula = .ofDocument c.document :=
        first.isParsed c (Rule.activeCondition_eq_some_iff.mp active).2
      have later (h : f ∈ (ofRules skip rest).allow ++ (ofRules skip rest).deny) :
          ∃ d ∈ c.document :: (ofRules skip rest).documents, f = Formula.ofDocument d := by
        obtain ⟨d, mem, same⟩ := ih others h
        exact ⟨d, List.mem_cons_of_mem c.document mem, same⟩
      cases effect : r.effect with
      | allow =>
        rw [ofRules_allow rest active effect] at h ⊢
        rcases List.mem_cons.mp h with rfl | h
        · exact ⟨c.document, List.mem_cons_self, parsed⟩
        · exact later h
      | deny =>
        rw [ofRules_deny rest active effect] at h ⊢
        rcases List.mem_append.mp h with h | h
        · exact later (List.mem_append_left _ h)
        · rcases List.mem_cons.mp h with rfl | h
          · exact ⟨c.document, List.mem_cons_self, parsed⟩
          · exact later (List.mem_append_right _ h)

theorem Gathered.formulas_filter {g : Gathered} {f : Formula} (h : f ∈ g.filter.formulas) :
    f ∈ g.allow ++ g.deny := by
  unfold filter at h
  split at h
  · exact List.mem_append_right _ h
  · split at h
    · simp [Filter.formulas] at h
    · exact h

namespace Ability

/-- A query and its document admit the same subjects, where the conditions that it is made of do not
ask for presence and have no connective for a key. -/
theorem isMet_query_document {a : Ability} (held : ∀ r ∈ a.rules, r.Held) {action type : String}
    {q : Query} (query : a.query? action type = some q)
    (names : ∀ d ∈ q.documents, ∀ key ∈ d.keys, Connective.ofKey? key = none)
    (unasked : ∀ d ∈ q.documents, d.asksFor "$exists" = false) (fields : Document) :
    Document.isMet fields q.filter.document = q.admits fields := by
  obtain rfl := eq_of_query? query
  have about_held : ∀ r ∈ a.rulesFor action type, r.Held := by
    intro r mem
    rw [rulesFor_eq, List.mem_reverse] at mem
    exact held r (List.mem_filter.mp mem).1
  rw [Query.admits, Query.formula]
  refine Filter.isMet_document_of_formulas fields fun f hf => ?_
  obtain ⟨d, mem, rfl⟩ := Gathered.exists_document about_held (Gathered.formulas_filter hf)
  exact Formula.isMet_ofDocument (names d mem) (unasked d mem)

/-- A key that looks like an operator is a field, a negated object of two operators is one
exception, and an operator that is not understood excepts nothing. -/
theorem isMet_query_document_where :
    let a : Ability := ⟨[
      (Rule.allow "read" "T").under [("$where", .text "x"),
        ("tag", .object [("$not", .object [("$gte", .text "a"), ("$in", .list [.text "b"])])])],
      (Rule.deny "read" "T").under [("owner", .object [("$regex", .text "u")])]], false⟩
    let fields : Document := [("$where", .text "x"), ("tag", .text "c"), ("owner", .text "u")]
    (∀ r ∈ a.rules, r.Held) ∧ ∃ q, a.query? "read" "T" = some q ∧
      (∀ d ∈ q.documents, ∀ key ∈ d.keys, Connective.ofKey? key = none) ∧
      (∀ d ∈ q.documents, d.asksFor "$exists" = false) ∧
      Document.isMet fields q.filter.document = q.admits fields ∧ q.admits fields = true := by
  intro a fields
  have held : ∀ r ∈ a.rules, r.Held :=
    List.forall_mem_cons.mpr ⟨.under (.allow "read" "T") _,
      List.forall_mem_singleton.mpr (.under (.deny "read" "T") _)⟩
  refine ⟨held, _, rfl, ?_, ?_, ?_, rfl⟩
  · decide
  · decide
  · exact @isMet_query_document a held "read" "T" _ rfl (by decide) (by decide) fields

end Ability

/-- A field named `$or` with a list of documents for its value: the document takes the list for
alternatives, and admits an item that the query does not admit and that is denied. -/
theorem Query.document_takes_key_for_connective :
    let a : Ability := ⟨[(Rule.allow "read" "T").under
      [("$or", .list [.object [("public", .bool true)]])]], false⟩
    let fields : Document := [("public", .bool true)]
    ∃ q, a.query? "read" "T" = some q ∧ (∀ d ∈ q.documents, d.asksFor "$exists" = false) ∧
      Document.isMet fields q.filter.document = true ∧ q.admits fields = false ∧
      a.can "read" (.item "T" fields) = false := by
  intro a fields
  exact ⟨_, rfl, by decide, rfl, rfl, rfl⟩

end AccessRules

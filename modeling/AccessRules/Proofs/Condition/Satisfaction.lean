import AccessRules.Proofs.FilterDocument.FieldNames

/-! What a condition document asks of the fields of a subject, said on the document itself: all of
its entries, each a literal or an object of operators. An operator that is not understood, under
whatever negations, leaves the field without a value that satisfies it. Main statement: the formula
of a document holds of exactly the fields that satisfy the document. -/

namespace AccessRules

/-! ### Satisfaction -/

/-- The operator is known, and its operand is of the kind that it takes. -/
def Understood (operator : String) (operand : Value) : Prop :=
  operator ∈ ["$not", "$eq", "$ne", "$gt", "$gte", "$lt", "$lte"] ∨
  operator ∈ ["$in", "$nin"] ∧ (∃ items, operand = .list items) ∨
  operator = "$exists" ∧ ∃ expected, operand = .bool expected

namespace Document

/-- An operator and its operand stand in an object of operators, or in one that is negated in it. -/
inductive Asks (operator : String) (operand : Value) : Document → Prop where
  | outright {d : Document} (mem : (operator, operand) ∈ d) : Asks operator operand d
  | negated {d inner : Document} (mem : ("$not", .object inner) ∈ d)
      (operators : inner.IsOperatorObject) (within : Asks operator operand inner) :
      Asks operator operand d

def AllUnderstood (d : Document) : Prop :=
  ∀ operator operand, Asks operator operand d → Understood operator operand

end Document

namespace Value

/-- Whether a field's value passes an operator other than negation. -/
def passes (actual : Option Value) : String → Value → Bool
  | "$eq", v => meets actual v
  | "$ne", v => !meets actual v
  | "$in", .list items => items.any (meets actual)
  | "$nin", .list items => !items.any (meets actual)
  | "$exists", .bool expected => isPresent actual == expected
  | "$gt", v => ordered actual v (· == .gt)
  | "$gte", v => ordered actual v (· != .lt)
  | "$lt", v => ordered actual v (· == .lt)
  | "$lte", v => ordered actual v (· != .gt)
  | _, _ => false

mutual

/-- Whether a field's value passes an operator. A negated object of operators is one conjunction,
and any other negated operand a literal. -/
def passesOne (actual : Option Value) (operator : String) : Value → Bool
  | .object inner =>
    if operator = "$not" then
      if Document.IsOperatorObject inner then !passesAll actual inner
      else !meets actual (.object inner)
    else passes actual operator (.object inner)
  | operand =>
    if operator = "$not" then !meets actual operand else passes actual operator operand

def passesAll (actual : Option Value) : List (String × Value) → Bool
  | [] => true
  | (operator, operand) :: rest => passesOne actual operator operand && passesAll actual rest

end

/-- Whether a field's value satisfies what a condition document has under the field's name. -/
def Satisfies (actual : Option Value) : Value → Prop
  | .object d =>
    if Document.IsOperatorObject d then Document.AllUnderstood d ∧ passesAll actual d
    else meets actual (.object d)
  | literal => meets actual literal

end Value

/-- Whether the fields of a subject satisfy a condition document. -/
def Document.Satisfies (fields condition : Document) : Prop :=
  ∀ entry ∈ condition, Value.Satisfies (fields.get? entry.1) entry.2

/-! ### Understanding -/

theorem Test.ofOperator?_eq_none_iff {operator : String} {operand : Value}
    (other : operator ≠ "$not") :
    ofOperator? operator operand = none ↔ ¬Understood operator operand := by
  unfold ofOperator?
  split
  case h_10 =>
    refine iff_of_true rfl ?_
    rintro (known | ⟨choice, items, rfl⟩ | ⟨rfl, expected, rfl⟩) <;> simp_all
  all_goals simp [Understood]

theorem Test.holds_ofOperator {operator : String} {operand : Value} {test : Test}
    (h : ofOperator? operator operand = some test) (actual : Option Value) :
    test.holds actual = Value.passes actual operator operand := by
  unfold ofOperator? at h
  split at h
  case h_10 => contradiction
  all_goals
    obtain rfl := Option.some.inj h
    rfl

namespace Document

theorem asks_cons {operator : String} {operand : Value} {entry : String × Value} {rest : Document} :
    Asks operator operand (entry :: rest) ↔
      Asks operator operand [entry] ∨ Asks operator operand rest := by
  constructor
  · intro h
    cases h with
    | outright mem =>
      rcases List.mem_cons.mp mem with rfl | mem
      · exact .inl (.outright List.mem_cons_self)
      · exact .inr (.outright mem)
    | negated mem operators within =>
      rcases List.mem_cons.mp mem with rfl | mem
      · exact .inl (.negated List.mem_cons_self operators within)
      · exact .inr (.negated mem operators within)
  · rintro (h | h)
    · cases h with
      | outright mem => exact .outright (List.mem_cons.mpr (.inl (List.mem_singleton.mp mem)))
      | negated mem operators within =>
        exact .negated (List.mem_cons.mpr (.inl (List.mem_singleton.mp mem))) operators within
    · cases h with
      | outright mem => exact .outright (List.mem_cons_of_mem entry mem)
      | negated mem operators within =>
        exact .negated (List.mem_cons_of_mem entry mem) operators within

theorem allUnderstood_cons {entry : String × Value} {rest : Document} :
    AllUnderstood (entry :: rest) ↔ AllUnderstood [entry] ∧ AllUnderstood rest := by
  constructor
  · intro h
    exact ⟨fun op arg asks => h op arg (asks_cons.mpr (.inl asks)),
      fun op arg asks => h op arg (asks_cons.mpr (.inr asks))⟩
  · rintro ⟨first, later⟩ op arg asks
    rcases asks_cons.mp asks with asks | asks
    · exact first op arg asks
    · exact later op arg asks

theorem allUnderstood_nil : AllUnderstood [] := by
  intro operator operand h
  cases h <;> contradiction

theorem allUnderstood_singleton {operator : String} {operand : Value}
    (plain : operator = "$not" → operand.isOperators = false) :
    AllUnderstood [(operator, operand)] ↔ Understood operator operand := by
  constructor
  · exact fun h => h operator operand (.outright List.mem_cons_self)
  · intro h op arg asks
    cases asks with
    | outright mem =>
      obtain ⟨rfl, rfl⟩ := Prod.mk.inj (List.mem_singleton.mp mem)
      exact h
    | negated mem operators within =>
      obtain ⟨rfl, rfl⟩ := Prod.mk.inj (List.mem_singleton.mp mem)
      have literal := plain rfl
      rw [Value.isOperators, isOperatorObject_iff.mp operators] at literal
      contradiction

theorem allUnderstood_negated {inner : Document} (operators : inner.IsOperatorObject) :
    AllUnderstood [("$not", .object inner)] ↔ AllUnderstood inner := by
  constructor
  · exact fun h op arg asks => h op arg (.negated List.mem_cons_self operators asks)
  · intro h op arg asks
    cases asks with
    | outright mem =>
      obtain ⟨rfl, rfl⟩ := Prod.mk.inj (List.mem_singleton.mp mem)
      exact .inl (by decide)
    | negated mem _ within =>
      obtain ⟨-, same⟩ := Prod.mk.inj (List.mem_singleton.mp mem)
      obtain rfl := Value.object.inj same
      exact h op arg within

end Document

/-! ### Reading -/

namespace Formula

/-- What comes of reading operators: where all of them are understood, a formula that holds if the
field's value passes them, and otherwise an error. -/
def Renders (fields d : Document) (passed : Bool) : Except UnknownOperator Formula → Prop
  | .ok f => Document.AllUnderstood d ∧ f.holds fields = passed
  | .error _ => ¬Document.AllUnderstood d

variable (fields : Document) (field : String)

theorem renders_ofSimple {operator : String} (other : operator ≠ "$not") (operand : Value) :
    Renders fields [(operator, operand)] (Value.passesOne (fields.get? field) operator operand)
      (ofOperator field operator operand) := by
  have understood : Document.AllUnderstood [(operator, operand)] ↔ Understood operator operand :=
    Document.allUnderstood_singleton fun same => absurd same other
  have passes (actual : Option Value) :
      Value.passesOne actual operator operand = Value.passes actual operator operand := by
    cases operand <;> simp [Value.passesOne, other]
  rw [ofOperator_of_ne field other, ofSimple]
  cases read : Test.ofOperator? operator operand with
  | none => exact mt understood.mp ((Test.ofOperator?_eq_none_iff other).mp read)
  | some test =>
    have known : Understood operator operand := by
      by_contra unknown
      rw [(Test.ofOperator?_eq_none_iff other).mpr unknown] at read
      contradiction
    refine ⟨understood.mpr known, ?_⟩
    rw [holds_field, FieldTest.holds, Test.holds_ofOperator read, passes]

theorem renders_not_literal {operand : Value} (literal : operand.isOperators = false) :
    Renders fields [("$not", operand)] (Value.passesOne (fields.get? field) "$not" operand)
      (ofOperator field "$not" operand) := by
  have passes (actual : Option Value) :
      Value.passesOne actual "$not" operand = !Value.meets actual operand := by
    cases operand with
    | object d =>
      have literal : ¬Document.IsOperatorObject d :=
        mt Document.isOperatorObject_iff.mp (Bool.eq_false_iff.mp literal)
      simp [Value.passesOne, literal]
    | _ => simp [Value.passesOne]
  rw [ofOperator_not_literal field literal]
  refine ⟨(Document.allUnderstood_singleton fun _ => literal).mpr (.inl (by decide)), ?_⟩
  rw [holds_not, holds_field, passes]
  rfl

theorem renders_not_operators {inner : Document} (operators : inner.IsOperatorObject)
    (within : Renders fields inner (Value.passesAll (fields.get? field) inner)
      ((ofOperators field inner).map conjunction)) :
    Renders fields [("$not", .object inner)]
      (Value.passesOne (fields.get? field) "$not" (.object inner))
      (ofOperator field "$not" (.object inner)) := by
  have understood := Document.allUnderstood_negated operators
  rw [ofOperator, if_pos rfl, if_pos (Document.isOperatorObject_iff.mp operators)]
  cases read : ofOperators field inner with
  | error e =>
    rw [read] at within
    exact mt understood.mp within
  | ok parts =>
    rw [read] at within
    obtain ⟨known, meaning⟩ := within
    refine ⟨understood.mpr known, ?_⟩
    rw [Value.passesOne, if_pos rfl, if_pos operators, holds_not, meaning]

theorem renders_cons {operator : String} {operand : Value} {rest : List (String × Value)}
    (first : Renders fields [(operator, operand)]
      (Value.passesOne (fields.get? field) operator operand) (ofOperator field operator operand))
    (later : Renders fields rest (Value.passesAll (fields.get? field) rest)
      ((ofOperators field rest).map conjunction)) :
    Renders fields ((operator, operand) :: rest)
      (Value.passesAll (fields.get? field) ((operator, operand) :: rest))
      ((ofOperators field ((operator, operand) :: rest)).map conjunction) := by
  have understood : Document.AllUnderstood ((operator, operand) :: rest) ↔
      Document.AllUnderstood [(operator, operand)] ∧ Document.AllUnderstood rest :=
    Document.allUnderstood_cons
  rw [ofOperators]
  cases read : ofOperator field operator operand with
  | error e =>
    rw [read] at first
    exact fun all => first (understood.mp all).1
  | ok f =>
    cases others : ofOperators field rest with
    | error e =>
      rw [others] at later
      exact fun all => later (understood.mp all).2
    | ok parts =>
      rw [read] at first
      rw [others] at later
      obtain ⟨first_known, first_meaning⟩ := first
      obtain ⟨later_known, later_meaning⟩ := later
      refine ⟨understood.mpr ⟨first_known, later_known⟩, ?_⟩
      rw [holds_conjunction, List.all_cons, ← holds_conjunction, first_meaning, later_meaning,
        Value.passesAll]

mutual

theorem renders_ofOperator (operator : String) : ∀ operand : Value,
    Renders fields [(operator, operand)]
      (Value.passesOne (fields.get? field) operator operand) (ofOperator field operator operand)
  | .object inner => by
    by_cases negation : operator = "$not"
    · subst negation
      cases operators : Document.isOperators inner with
      | false => exact renders_not_literal fields field operators
      | true =>
        exact renders_not_operators fields field (Document.isOperatorObject_iff.mpr operators)
          (renders_ofOperators inner)
    · exact renders_ofSimple fields field negation _
  | .null | .bool _ | .number _ | .text _ | .list _ => by
    by_cases negation : operator = "$not"
    · subst negation
      exact renders_not_literal fields field rfl
    · exact renders_ofSimple fields field negation _

theorem renders_ofOperators : ∀ operators : List (String × Value),
    Renders fields operators (Value.passesAll (fields.get? field) operators)
      ((ofOperators field operators).map conjunction)
  | [] => ⟨Document.allUnderstood_nil, rfl⟩
  | (operator, operand) :: rest =>
    renders_cons fields field (renders_ofOperator operator operand) (renders_ofOperators rest)

end

theorem holds_ofField_iff (value : Value) :
    (ofField field value).holds fields ↔ Value.Satisfies (fields.get? field) value := by
  cases operators : value.isOperators with
  | false =>
    rw [ofField_literal field operators, holds_field]
    cases value with
    | object d =>
      have literal : ¬Document.IsOperatorObject d :=
        mt Document.isOperatorObject_iff.mp (Bool.eq_false_iff.mp operators)
      rw [Value.Satisfies, if_neg literal]
      rfl
    | _ => rfl
  | true =>
    cases value with
    | object d =>
      have operators : Document.isOperators d := operators
      have renders := renders_ofOperators fields field d
      rw [holds_ofField_operators fields field operators, Value.Satisfies,
        if_pos (Document.isOperatorObject_iff.mpr operators)]
      cases read : ofOperators field d with
      | error e =>
        rw [read] at renders
        exact iff_of_false Bool.false_ne_true fun satisfied => renders satisfied.1
      | ok parts =>
        rw [read] at renders
        obtain ⟨known, meaning⟩ := renders
        rw [and_iff_right known, ← meaning, holds_conjunction]
    | _ => contradiction

/-- The formula of a condition document holds of the fields that satisfy the document, and of no
others. -/
theorem holds_ofDocument_iff (condition fields : Document) :
    (ofDocument condition).holds fields ↔ fields.Satisfies condition := by
  rw [ofDocument, holds_conjunction, List.all_map, List.all_eq_true]
  exact forall₂_congr fun entry _ => holds_ofField_iff fields entry.1 entry.2

/-- A negation around an operator that is not understood makes no match of it. -/
example :
    let negated : Value := .object [("$not", .object [("$regex", .text "a")])]
    (ofDocument [("title", negated)]).holds [] = false := rfl

end Formula

end AccessRules

import AccessRules.Proofs.Sql.Lowering

/-! What of a formula reaches the text of its fragment: the outline, in which each value is replaced
with one that stands for its kind. Formulas of one outline have one clause, parameters of the same
kinds and residuals at the same tests, so no value of a condition can show in a query. -/

namespace AccessRules

/-! ### Outlines -/

namespace Value

/-- The kinds of values. -/
inductive Kind where
  | null
  | bool
  | number
  | text
  | list
  | object
  deriving DecidableEq

def kind : Value → Kind
  | null => .null
  | bool _ => .bool
  | number _ => .number
  | text _ => .text
  | list _ => .list
  | object _ => .object

def Kind.blank : Kind → Value
  | .null => .null
  | .bool => .bool false
  | .number => .number (.int ⟨0, by decide, by decide⟩)
  | .text => .text ""
  | .list => .list []
  | .object => .object []

/-- The value that stands for all values of the kind. -/
def blank (v : Value) : Value := v.kind.blank

theorem kind_blank (v : Value) : v.blank.kind = v.kind := by cases v <;> rfl

@[simp] theorem isNull_blank (v : Value) : v.blank.isNull = v.isNull := by cases v <;> rfl

@[simp] theorem isScalar_blank (v : Value) : v.blank.isScalar = v.isScalar := by cases v <;> rfl

end Value

/-- A test with the kinds of its values only. -/
def Test.outline : Test → Test
  | equals v => equals v.blank
  | differs v => differs v.blank
  | oneOf items => oneOf (items.map Value.blank)
  | noneOf items => noneOf (items.map Value.blank)
  | present expected => present expected
  | above bound => above bound.blank
  | atLeast bound => atLeast bound.blank
  | below bound => below bound.blank
  | atMost bound => atMost bound.blank
  | unsupported operator whole => unsupported operator whole.blank

def FieldTest.outline (t : FieldTest) : FieldTest := ⟨t.field, t.test.outline⟩

namespace Formula

mutual

/-- A formula with the kinds of its values only: its connectives, fields and operators stay. -/
def outline : Formula → Formula
  | all parts => all (outlines parts)
  | any parts => any (outlines parts)
  | not part => not (outline part)
  | field t => field t.outline

def outlines : List Formula → List Formula
  | [] => []
  | f :: rest => outline f :: outlines rest

end

theorem outlines_eq_map (parts : List Formula) : outlines parts = parts.map outline := by
  induction parts with
  | nil => rfl
  | cons f rest ih => rw [outlines, ih, List.map_cons]

/-- An outline has the outlines of the tests. -/
theorem tests_outline (negated : Bool) (f : Formula) :
    f.outline.tests negated = (f.tests negated).map fun p => (p.1.outline, p.2) := by
  induction f generalizing negated with
  | all parts ih | any parts ih =>
    simp only [outline, outlines_eq_map, tests_all, tests_any, List.flatMap_map, List.map_flatMap]
    exact List.flatMap_congr fun f hf => ih f hf negated
  | not part ih => rw [outline, tests_not, tests_not, ih]
  | field t => rw [outline, tests_field, tests_field, List.map_singleton]

end Formula

namespace Sql

/-! ### Clauses -/

theorem isExpressible_outline (test : Test) : isExpressible test.outline = isExpressible test := by
  cases test with
  | oneOf items | noneOf items => simp [Test.outline, isExpressible, Function.comp_def]
  | above v | atLeast v | below v | atMost v => cases v <;> rfl
  | _ => simp [Test.outline, isExpressible]

namespace Clause

mutual

def outline : Clause → Clause
  | constant value => constant value
  | all parts => all (outlines parts)
  | any parts => any (outlines parts)
  | not part => not (outline part)
  | atom t => atom t.outline

def outlines : List Clause → List Clause
  | [] => []
  | c :: rest => outline c :: outlines rest

end

theorem outlines_eq_map (parts : List Clause) : outlines parts = parts.map outline := by
  induction parts with
  | nil => rfl
  | cons c rest ih => rw [outlines, ih, List.map_cons]

theorem outline_all (parts : List Clause) : (all parts).outline = all (parts.map outline) := by
  rw [outline, outlines_eq_map]

theorem outline_any (parts : List Clause) : (any parts).outline = any (parts.map outline) := by
  rw [outline, outlines_eq_map]

theorem negate_outline (c : Clause) : c.outline.negate = c.negate.outline := by
  cases c <;> simp [outline, negate]

theorem isConstant_outline (value : Bool) (c : Clause) :
    c.outline.isConstant value = c.isConstant value := by
  cases c <;> simp [outline, isConstant]

theorem flatten_outline (conjunction : Bool) (c : Clause) :
    c.outline.flatten conjunction = (c.flatten conjunction).map outline := by
  cases c with
  | constant value => simp [outline, flatten]
  | all parts => cases conjunction <;> simp [outline_all, flatten]
  | any parts => cases conjunction <;> simp [outline_any, flatten]
  | not part => simp [outline, flatten]
  | atom t => simp [outline, flatten]

/-- Folding and flattening look at the shape only. -/
theorem connect_outline (conjunction : Bool) (parts : List Clause) :
    connect conjunction (parts.map outline) = (connect conjunction parts).outline := by
  have constants : (parts.map outline).any (isConstant !conjunction) =
      parts.any (isConstant !conjunction) := by
    simp only [List.any_map, Function.comp_def, isConstant_outline]
  have kept : (parts.map outline).flatMap (flatten conjunction) =
      (parts.flatMap (flatten conjunction)).map outline := by
    rw [List.flatMap_map, List.map_flatMap]
    exact List.flatMap_congr fun c _ => flatten_outline conjunction c
  unfold connect
  rw [constants, kept]
  split
  · rw [outline]
  · match parts.flatMap (flatten conjunction) with
    | [] => rfl
    | [c] => rfl
    | _ :: _ :: _ => cases conjunction <;> simp [outline_all, outline_any]

end Clause

theorem isEmptyChoice_outline (test : Test) : isEmptyChoice test.outline = isEmptyChoice test := by
  cases test <;> simp [Test.outline, isEmptyChoice]

theorem lowerTest_outline (negated : Bool) (t : FieldTest) :
    (lowerTest negated t.outline).clause = (lowerTest negated t).clause.outline := by
  cases choice : isEmptyChoice t.test with
  | true =>
    obtain ⟨name, test⟩ := t
    cases test <;> simp [isEmptyChoice] at choice <;> subst choice <;> rfl
  | false =>
    have outlined : isEmptyChoice t.outline.test = false := by
      rw [← choice]
      exact isEmptyChoice_outline t.test
    have expressible : isExpressible t.outline.test = isExpressible t.test :=
      isExpressible_outline t.test
    rw [lowerTest_clause choice, lowerTest_clause outlined, expressible]
    split <;> rw [Clause.outline]

theorem lower_outline (negated : Bool) (f : Formula) :
    (lower negated f.outline).clause = (lower negated f).clause.outline := by
  induction f generalizing negated with
  | all parts ih | any parts ih =>
    simp only [Formula.outline, Formula.outlines_eq_map, lower, lowerParts_eq_map, List.map_map]
    rw [← Clause.connect_outline, List.map_map]
    congr 1
    exact List.map_congr_left fun f hf => ih f hf negated
  | not part ih => rw [Formula.outline, lower, lower, ih, Clause.negate_outline]
  | field t => rw [Formula.outline, lower, lower, lowerTest_outline]

/-! ### Tokens -/

namespace Token

/-- A token with the kind of its value only. -/
def outline : Token → Token
  | param v => param v.blank
  | t => t

theorem chars_outline (style : Placeholder) (number : UInt64) (t : Token) :
    t.outline.chars style number = t.chars style number := by
  cases t <;> rfl

theorem spaced_outline (t u : Token) : spaced t.outline u.outline = spaced t u := by
  cases t <;> cases u <;> rfl

theorem value?_outline (t : Token) : t.outline.value? = t.value?.map Value.blank := by
  cases t <;> rfl

theorem paramList_outline (values : List Value) :
    paramList (values.map Value.blank) = (paramList values).map outline := by
  cases values with
  | nil => rfl
  | cons v rest => simp [paramList, outline, List.flatMap_map, List.map_flatMap]

theorem nullTest_outline (name : String) (isNull : Bool) :
    (nullTest name isNull).map outline = nullTest name isNull := by
  cases isNull <;> rfl

theorem membership_outline (name : String) (items : List Value) (isIn : Bool) :
    membership name (items.map Value.blank) isIn = (membership name items isIn).map outline := by
  have values : ((items.map Value.blank).filter fun v => !v.isNull) =
      (items.filter fun v => !v.isNull).map Value.blank := by
    simp [List.filter_map, Function.comp_def]
  unfold membership
  simp only [values, List.isEmpty_map, List.length_map, paramList_outline]
  split
  · rw [nullTest_outline]
  · split <;> cases isIn <;> simp [outline, nullTest_outline]

theorem ofTest_outline (t : FieldTest) : ofTest t.outline = (ofTest t).map outline := by
  obtain ⟨name, test⟩ := t
  cases test with
  | equals v | differs v => cases v <;> rfl
  | oneOf items | noneOf items => exact membership_outline name items _
  | present expected => cases expected <;> rfl
  | _ => rfl

/-- The text of some tokens has nothing of their values. -/
theorem write_outline (style : Placeholder) (number : UInt64) (tokens : List Token) :
    write style number (tokens.map outline) = write style number tokens := by
  induction tokens generalizing number with
  | nil => rfl
  | cons t rest ih =>
    cases rest with
    | nil => simp [write, chars_outline]
    | cons u rest =>
      rw [List.map_cons] at ih
      rw [List.map_cons, List.map_cons, write, write, chars_outline, spaced_outline,
        value?_outline, Option.isSome_map, ih]

theorem values_outline (tokens : List Token) :
    (tokens.map outline).filterMap value? = (tokens.filterMap value?).map Value.blank := by
  rw [List.filterMap_map, List.map_filterMap]
  exact List.filterMap_congr fun t _ => value?_outline t

end Token

namespace Clause

theorem joined_outline (word : Keyword) {parts : List Clause}
    (h : ∀ c ∈ parts, c.outline.tokens = c.tokens.map Token.outline) :
    joined word (parts.map outline) = (joined word parts).map Token.outline := by
  induction parts with
  | nil => simp [joined]
  | cons c rest ih =>
    obtain ⟨hc, hrest⟩ := List.forall_mem_cons.mp h
    have ih := ih hrest
    cases rest with
    | nil => simpa [joined] using hc
    | cons d rest =>
      rw [List.map_cons] at ih
      simp [joined, hc, ih, Token.outline]

theorem tokens_outline (c : Clause) : c.outline.tokens = c.tokens.map Token.outline := by
  induction c with
  | constant value => cases value <;> rfl
  | all parts ih => simp [outline_all, tokens, joined_outline _ ih, Token.outline]
  | any parts ih => simp [outline_any, tokens, joined_outline _ ih, Token.outline]
  | not part ih =>
    have connective : part.outline.isConnective = part.isConnective := by
      cases part <;> simp [outline, isConnective]
    rw [outline, tokens_not, tokens_not, connective, ih]
    split <;> simp [Token.outline]
  | atom t => rw [outline, tokens, tokens, Token.ofTest_outline]

end Clause

/-! ### Fragments -/

theorem Fragment.clause_outline (options : Options) (f : Formula) :
    (ofFormula options f.outline).clause = (ofFormula options f).clause := by
  rw [ofFormula, ofFormula]
  simp only [lower_outline, Clause.tokens_outline, Token.write_outline]

theorem Fragment.params_outline (options : Options) (f : Formula) :
    (ofFormula options f.outline).params.map Value.kind =
      (ofFormula options f).params.map Value.kind := by
  rw [ofFormula, ofFormula]
  simp only [lower_outline, Clause.tokens_outline, Token.values_outline, List.map_map]
  exact List.map_congr_left fun v _ => Value.kind_blank v

theorem Fragment.residuals_outline (options : Options) (f : Formula) :
    (ofFormula options f.outline).residuals.map (fun r => (r.field, r.negated)) =
      (ofFormula options f).residuals.map fun r => (r.field, r.negated) := by
  rw [ofFormula, ofFormula]
  simp only [lower_residuals, Formula.tests_outline, List.filter_map, List.map_map]
  have same : ((fun p : FieldTest × Bool => !isExpressible p.1.test) ∘
      fun p : FieldTest × Bool => (p.1.outline, p.2)) = fun p => !isExpressible p.1.test := by
    funext p
    simp [FieldTest.outline, isExpressible_outline]
  rw [same]
  rfl

/-- Formulas that differ only in values, each replaced with one of its kind, have the same clause,
parameters of the same kinds one by one, and residuals at the same fields with the same signs. -/
theorem Fragment.eq_of_outline_eq {f g : Formula} (same : f.outline = g.outline)
    (options : Options) :
    (ofFormula options f).clause = (ofFormula options g).clause ∧
      (ofFormula options f).params.map Value.kind = (ofFormula options g).params.map Value.kind ∧
      (ofFormula options f).residuals.map (fun r => (r.field, r.negated)) =
        (ofFormula options g).residuals.map fun r => (r.field, r.negated) := by
  refine ⟨?_, ?_, ?_⟩
  · rw [← clause_outline options f, same, clause_outline options g]
  · rw [← params_outline options f, same, params_outline options g]
  · rw [← residuals_outline options f, same, residuals_outline options g]

/-- The values that a choice, a bound and a list in a residual hold do not show in the clause. -/
theorem Fragment.eq_of_outline_eq_quoted :
    let f : Formula := .all [.not (.field ⟨"owner", .oneOf [.null, .text "u"]⟩),
      .field ⟨"age", .above (.number (.int ⟨30, by decide, by decide⟩))⟩,
      .not (.field ⟨"tags", .equals (.list [])⟩)]
    let g : Formula := .all [.not (.field ⟨"owner", .oneOf [.null, .text "' or true --"]⟩),
      .field ⟨"age", .above (.number (.int ⟨-1, by decide, by decide⟩))⟩,
      .not (.field ⟨"tags", .equals (.list [.text "\"age\""])⟩)]
    f.outline = g.outline ∧ (ofFormula {} f).clause = (ofFormula {} g).clause ∧
      (ofFormula {} f).params.map Value.kind = (ofFormula {} g).params.map Value.kind ∧
      (ofFormula {} f).residuals.map (fun r => (r.field, r.negated)) =
        (ofFormula {} g).residuals.map fun r => (r.field, r.negated) := by
  intro f g
  exact ⟨rfl, eq_of_outline_eq rfl {}⟩

end Sql

end AccessRules

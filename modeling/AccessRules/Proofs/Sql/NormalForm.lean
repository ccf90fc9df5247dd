import AccessRules.Proofs.Sql.Residuals

/-! The normal form of clauses. A lowered clause is one constant, or it has no constant at all: then
its connectives have two parts or more, none stands directly in another of its kind, no negation
stands directly in a negation, and every test is one that SQL can express. The tokens of such a
clause are groups of two parts or more and tests, and the constants that stand for what SQL cannot
express are not among them. -/

namespace AccessRules

/-- What a test compares with is scalar, a choice has some value to choose, a bound is a number or a
text, and the test is understood. -/
def Test.FitsSql : Test → Prop
  | equals v | differs v => ¬v.HasParts
  | oneOf items | noneOf items => items ≠ [] ∧ ∀ v ∈ items, ¬v.HasParts
  | present _ => True
  | above bound | atLeast bound | below bound | atMost bound => bound.HasOrder
  | unsupported _ _ => False

namespace Sql

theorem fitsSql_of_isExpressible {test : Test} (choice : isEmptyChoice test = false)
    (expressible : isExpressible test) : test.FitsSql := by
  have within : ¬test.BeyondSql := by
    rw [← isExpressible_eq_false_iff, Bool.not_eq_false]
    exact expressible
  cases test with
  | oneOf items | noneOf items =>
    have some_item : items ≠ [] := by
      rintro rfl
      contradiction
    exact ⟨some_item, fun v hv parts => within ⟨v, hv, parts⟩⟩
  | present expected => trivial
  | above bound | atLeast bound | below bound | atMost bound => exact not_not.mp within
  | equals v | differs v => exact within
  | unsupported operator whole => exact within trivial

namespace Clause

/-! ### Normal forms -/

/-- The clauses that stand in a clause, itself included. -/
inductive Within (c : Clause) : Clause → Prop
  | self : Within c c
  | all {parts : List Clause} {part : Clause} :
      part ∈ parts → Within c part → Within c (all parts)
  | any {parts : List Clause} {part : Clause} :
      part ∈ parts → Within c part → Within c (any parts)
  | not {part : Clause} : Within c part → Within c (not part)

/-- The clause is a constant or has none; connectives have two parts or more, and no connective or
negation is a direct part of one of its own kind; the tests are fit for SQL. -/
structure IsNormal (c : Clause) : Prop where
  constant : (∃ value, c = .constant value) ∨ ∀ value, ¬(Clause.constant value).Within c
  all : ∀ parts, (Clause.all parts).Within c →
    2 ≤ parts.length ∧ ∀ part ∈ parts, ∀ inner, part ≠ .all inner
  any : ∀ parts, (Clause.any parts).Within c →
    2 ≤ parts.length ∧ ∀ part ∈ parts, ∀ inner, part ≠ .any inner
  not : ∀ part, (Clause.not part).Within c → ∀ inner, part ≠ .not inner
  atom : ∀ t : FieldTest, (Clause.atom t).Within c → t.test.FitsSql

/-- A normal clause other than a constant, but for the count of the parts of its connectives. -/
inductive Folded : Clause → Prop
  | all {parts : List Clause} : (∀ c ∈ parts, Folded c) → (∀ c ∈ parts, ∀ inner, c ≠ all inner) →
      Folded (all parts)
  | any {parts : List Clause} : (∀ c ∈ parts, Folded c) → (∀ c ∈ parts, ∀ inner, c ≠ any inner) →
      Folded (any parts)
  | not {part : Clause} : Folded part → (∀ inner, part ≠ not inner) → Folded (not part)
  | atom {t : FieldTest} : t.test.FitsSql → Folded (atom t)

/-- What lowering yields for every part before it is put into a connective. -/
def IsFolded (c : Clause) : Prop := (∃ value, c = constant value) ∨ c.Folded

theorem Folded.within {c d : Clause} (h : c.Folded) (within : d.Within c) : d.Folded := by
  induction within with
  | self => exact h
  | all mem _ ih =>
    cases h with
    | all folded _ => exact ih (folded _ mem)
  | any mem _ ih =>
    cases h with
    | any folded _ => exact ih (folded _ mem)
  | not _ ih =>
    cases h with
    | not folded _ => exact ih folded

theorem Grouped.within {c d : Clause} (h : c.Grouped) (within : d.Within c) : d.Grouped := by
  induction within with
  | self => exact h
  | all mem _ ih =>
    cases h with
    | all _ parts => exact ih (parts _ mem)
  | any mem _ ih =>
    cases h with
    | any _ parts => exact ih (parts _ mem)
  | not _ ih =>
    cases h with
    | not part => exact ih part

theorem isNormal_constant (value : Bool) : (constant value).IsNormal where
  constant := .inl ⟨value, rfl⟩
  all := nofun
  any := nofun
  not := nofun
  atom := nofun

theorem Folded.isNormal {c : Clause} (h : c.Folded) (grouped : c.Grouped) : c.IsNormal where
  constant := .inr fun _ within => nomatch h.within within
  all parts within := by
    cases h.within within with
    | all _ flat =>
      cases grouped.within within with
      | all two _ => exact ⟨two, flat⟩
  any parts within := by
    cases h.within within with
    | any _ flat =>
      cases grouped.within within with
      | any two _ => exact ⟨two, flat⟩
  not part within := by
    cases h.within within with
    | not _ single => exact single
  atom t within := by
    cases h.within within with
    | atom fits => exact fits

/-! ### Lowering -/

theorem IsFolded.negate {c : Clause} (h : c.IsFolded) : c.negate.IsFolded := by
  rcases h with ⟨value, rfl⟩ | h
  · exact .inl ⟨!value, rfl⟩
  · right
    cases h with
    | all folded flat => exact .not (.all folded flat) nofun
    | any folded flat => exact .not (.any folded flat) nofun
    | not folded _ => exact folded
    | atom fits => exact .not (.atom fits) nofun

/-- What a folded part leaves in a connective is folded and not a connective of that kind. -/
theorem IsFolded.flatten {conjunction : Bool} {c d : Clause} (h : c.IsFolded)
    (mem : d ∈ c.flatten conjunction) :
    d.Folded ∧ ∀ inner, d ≠ if conjunction then .all inner else .any inner := by
  rcases h with ⟨value, rfl⟩ | h
  · simp [Clause.flatten] at mem
  · cases h with
    | all folded flat =>
      cases conjunction with
      | true => exact ⟨folded d mem, flat d mem⟩
      | false =>
        obtain rfl := List.mem_singleton.mp mem
        exact ⟨.all folded flat, by simp⟩
    | any folded flat =>
      cases conjunction with
      | true =>
        obtain rfl := List.mem_singleton.mp mem
        exact ⟨.any folded flat, by simp⟩
      | false => exact ⟨folded d mem, flat d mem⟩
    | not folded single =>
      obtain rfl := List.mem_singleton.mp mem
      exact ⟨.not folded single, by cases conjunction <;> simp⟩
    | atom fits =>
      obtain rfl := List.mem_singleton.mp mem
      exact ⟨.atom fits, by cases conjunction <;> simp⟩

/-- The only part that is left may be of any kind; the connective around it flattens it in turn. -/
theorem isFolded_connect (conjunction : Bool) {parts : List Clause}
    (h : ∀ c ∈ parts, c.IsFolded) : (connect conjunction parts).IsFolded := by
  have kept : ∀ d ∈ parts.flatMap (flatten conjunction),
      d.Folded ∧ ∀ inner, d ≠ if conjunction then .all inner else .any inner := by
    intro d mem
    obtain ⟨c, hc, mem⟩ := List.mem_flatMap.mp mem
    exact (h c hc).flatten mem
  unfold connect
  split
  · exact .inl ⟨_, rfl⟩
  · generalize parts.flatMap (flatten conjunction) = ds at kept ⊢
    match ds with
    | [] => exact .inl ⟨_, rfl⟩
    | [d] => exact .inr (kept d (by simp)).1
    | d :: e :: ds =>
      right
      cases conjunction with
      | true => exact .all (fun c hc => (kept c hc).1) fun c hc => (kept c hc).2
      | false => exact .any (fun c hc => (kept c hc).1) fun c hc => (kept c hc).2

end Clause

theorem isFolded_lowerTest (negated : Bool) (t : FieldTest) :
    (lowerTest negated t).clause.IsFolded := by
  cases choice : isEmptyChoice t.test with
  | true =>
    obtain ⟨value, clause, -⟩ := lowerTest_choice choice negated
    exact .inl ⟨value, clause⟩
  | false =>
    rw [lowerTest_clause choice]
    split
    case isTrue expressible => exact .inr (.atom (fitsSql_of_isExpressible choice expressible))
    case isFalse => exact .inl ⟨_, rfl⟩

theorem isFolded_lower (negated : Bool) (f : Formula) : (lower negated f).clause.IsFolded := by
  induction f generalizing negated with
  | all parts ih | any parts ih =>
    rw [lower, lowerParts_eq_map]
    apply Clause.isFolded_connect
    simpa using fun g hg => ih g hg negated
  | not part ih => exact (ih (!negated)).negate
  | field t => exact isFolded_lowerTest negated t

/-! ### Writing -/

/-- Parts in parentheses with `and`, or else `or`, between them. -/
def Token.group (conjunction : Bool) (parts : List (List Token)) : List Token :=
  opening :: [keyword (if conjunction then .and else .or)].intercalate parts ++ [closing]

/-- The tokens are tests that SQL can express and groups of two parts or more. A negation stands
before a group, or before the parentheses around one test. -/
inductive Tidy : List Token → Prop
  | test {t : FieldTest} : t.test.FitsSql → Tidy (Token.ofTest t)
  | group {conjunction : Bool} {parts : List (List Token)} : 2 ≤ parts.length →
      (∀ tokens ∈ parts, Tidy tokens) → Tidy (Token.group conjunction parts)
  | notTest {t : FieldTest} : t.test.FitsSql →
      Tidy (.keyword .not :: .opening :: Token.ofTest t ++ [.closing])
  | notGroup {conjunction : Bool} {parts : List (List Token)} : 2 ≤ parts.length →
      (∀ tokens ∈ parts, Tidy tokens) → Tidy (.keyword .not :: Token.group conjunction parts)

namespace Clause

theorem tokens_all (parts : List Clause) :
    (all parts).tokens = Token.group true (parts.map tokens) := by
  rw [tokens, joined_eq_intercalate]
  rfl

theorem tokens_any (parts : List Clause) :
    (any parts).tokens = Token.group false (parts.map tokens) := by
  rw [tokens, joined_eq_intercalate]
  rfl

/-- A group is tidy on its own and under a negation, which adds no parentheses to it. -/
theorem Folded.tidy {c : Clause} (h : c.Folded) (grouped : c.Grouped) :
    Tidy c.tokens ∧ (c.isConnective → Tidy (.keyword .not :: c.tokens)) := by
  induction h with
  | all _ _ ih =>
    cases grouped with
    | all two parts =>
      have tidy := List.forall_mem_map.mpr fun c hc => (ih c hc (parts c hc)).1
      rw [tokens_all]
      exact ⟨.group (by simpa using two) tidy, fun _ => .notGroup (by simpa using two) tidy⟩
  | any _ _ ih =>
    cases grouped with
    | any two parts =>
      have tidy := List.forall_mem_map.mpr fun c hc => (ih c hc (parts c hc)).1
      rw [tokens_any]
      exact ⟨.group (by simpa using two) tidy, fun _ => .notGroup (by simpa using two) tidy⟩
  | not folded single ih =>
    cases grouped with
    | not part =>
      refine ⟨?_, nofun⟩
      have negated := (ih part).2
      rw [tokens_not]
      cases folded with
      | all => exact negated rfl
      | any => exact negated rfl
      | not => exact absurd rfl (single _)
      | atom fits => exact .notTest fits
  | atom fits => exact ⟨.test fits, nofun⟩

end Clause

namespace Token

/-- The constants; `false` also stands for a test that is not understood. -/
def isConstant : Token → Bool
  | keyword .true | keyword .false => true
  | _ => false

theorem any_isConstant_group {conjunction : Bool} {parts : List (List Token)}
    (none : ∀ tokens ∈ parts, tokens.any isConstant = false) :
    (group conjunction parts).any isConstant = false := by
  have joined : ([keyword (if conjunction then .and else .or)].intercalate parts).any isConstant =
      false := by
    induction parts with
    | nil => rfl
    | cons tokens rest ih =>
      obtain ⟨head, tail⟩ := List.forall_mem_cons.mp none
      cases rest with
      | nil => simpa using head
      | cons next rest =>
        rw [List.intercalate_cons_cons, List.any_append, List.any_append, head, ih tail]
        cases conjunction <;> rfl
  simp [group, isConstant, joined]

theorem any_isConstant_membership (name : String) (items : List Value) (isIn : Bool) :
    (membership name items isIn).any isConstant = false := by
  have nullTest : (nullTest name isIn).any isConstant = false := by cases isIn <;> rfl
  have values : (paramList (items.filter fun v => !v.isNull)).any isConstant = false := by
    cases items.filter fun v => !v.isNull <;> simp [paramList, isConstant]
  unfold membership
  simp only
  split
  · exact nullTest
  · split <;> cases isIn <;> simp [isConstant, nullTest, values]

theorem any_isConstant_ofTest {t : FieldTest} (fits : t.test.FitsSql) :
    (ofTest t).any isConstant = false := by
  obtain ⟨name, test⟩ := t
  cases test with
  | equals v | differs v => cases v <;> rfl
  | oneOf items | noneOf items => exact any_isConstant_membership name items _
  | present expected => cases expected <;> rfl
  | above bound | atLeast bound | below bound | atMost bound => rfl
  | unsupported operator whole => exact fits.elim

end Token

theorem Tidy.any_isConstant {tokens : List Token} (h : Tidy tokens) :
    tokens.any Token.isConstant = false := by
  induction h with
  | test fits => exact Token.any_isConstant_ofTest fits
  | group _ _ ih => exact Token.any_isConstant_group ih
  | notTest fits => simp [Token.isConstant, Token.any_isConstant_ofTest fits]
  | notGroup _ _ ih => simp [Token.isConstant, Token.any_isConstant_group ih]

/-- A formula is lowered to a normal form, whatever the number of negations around it. What is
written for it is the one constant that it is, or tests that SQL can express and groups of two parts
or more, without the constant that stands for a test that is not understood. -/
theorem isNormal_lower (negated : Bool) (f : Formula) :
    (lower negated f).clause.IsNormal ∧
      ((∃ value, (lower negated f).clause = .constant value ∧
          (lower negated f).clause.tokens = [.keyword (if value then .true else .false)]) ∨
        Tidy (lower negated f).clause.tokens ∧
          (lower negated f).clause.tokens.any Token.isConstant = false) := by
  have grouped := grouped_lower negated f
  rcases isFolded_lower negated f with ⟨value, clause⟩ | folded
  · rw [clause]
    refine ⟨Clause.isNormal_constant value, .inl ⟨value, rfl, ?_⟩⟩
    cases value <;> rfl
  · have tidy := (folded.tidy grouped).1
    exact ⟨folded.isNormal grouped, .inr ⟨tidy, tidy.any_isConstant⟩⟩

example (name : String) :
    let t : FieldTest := ⟨name, .present true⟩
    (lower false (.all [.any [.all [.field t, .field t], .never], .not (.not (.field t))])).clause =
      .all [.atom t, .atom t, .atom t] := rfl

end Sql

end AccessRules

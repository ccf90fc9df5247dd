import AccessRules.Filter
import Mathlib.Data.List.Induction

/-! What the filter of an action on a type admits, against what the rules allow. Reading the rules
newest first gathers every alternative and exception down to the first rule without a condition,
while a check stops at the first rule that decides, so the two part only where an exception holds
that some newer grant overrides. `query?_admits_iff` says so for every list of rules. -/

namespace AccessRules

/-! ### Filters as formulas -/

theorem Formula.all_holds_not (fields : Document) (parts : List Formula) :
    (parts.map .not).all (Formula.holds fields) = !parts.any (Formula.holds fields) := by
  induction parts with
  | nil => rfl
  | cons f rest ih =>
    simp only [List.map_cons, List.all_cons, List.any_cons, Formula.holds_not, ih, Bool.not_or]

theorem Filter.holds_select_none (fields : Document) (deny : List Formula) :
    (Filter.select none deny).formula.holds fields = !deny.any (Formula.holds fields) := by
  rw [Filter.formula, Formula.holds_conjunction, Formula.all_holds_not]

theorem Filter.holds_select_some (fields : Document) (allow deny : List Formula) :
    (Filter.select (some allow) deny).formula.holds fields =
      (allow.any (Formula.holds fields) && !deny.any (Formula.holds fields)) := by
  rw [Filter.formula, Formula.holds_conjunction, List.all_cons, Formula.holds_disjunction,
    Formula.all_holds_not]

theorem Filter.holds_forbidden (fields : Document) :
    Filter.forbidden.formula.holds fields = false := by
  rw [Filter.formula, Formula.never, Formula.holds_any, List.any_nil]

namespace Gathered

/-- A filter admits by an alternative, or by all means, and never against an exception. -/
theorem holds_filter (g : Gathered) (fields : Document) :
    g.filter.formula.holds fields =
      ((g.unrestricted || g.allow.any (Formula.holds fields)) &&
        !g.deny.any (Formula.holds fields)) := by
  unfold filter
  split
  case isTrue h => rw [Filter.holds_select_none, h, Bool.true_or, Bool.true_and]
  case isFalse h =>
    rw [Bool.not_eq_true] at h
    split
    case isTrue none =>
      rw [List.isEmpty_iff] at none
      rw [Filter.holds_forbidden, h, none, List.any_nil, Bool.or_false, Bool.false_and]
    case isFalse => rw [Filter.holds_select_some, h, Bool.false_or]

/-! ### Reading and deciding -/

theorem ofRules_unconditioned {skip : Bool} {r : Rule} (rest : List Rule)
    (h : r.activeCondition skip = none) :
    ofRules skip (r :: rest) = ⟨[], [], [], r.effect == .allow⟩ := by
  rw [ofRules, h]
  cases r.effect <;> rfl

theorem ofRules_allow {skip : Bool} {r : Rule} {c : Condition} (rest : List Rule)
    (h : r.activeCondition skip = some c) (effect : r.effect = .allow) :
    ofRules skip (r :: rest) =
      { ofRules skip rest with
        allow := c.formula :: (ofRules skip rest).allow
        documents := c.document :: (ofRules skip rest).documents } := by
  rw [ofRules, h, effect]

theorem ofRules_deny {skip : Bool} {r : Rule} {c : Condition} (rest : List Rule)
    (h : r.activeCondition skip = some c) (effect : r.effect = .deny) :
    ofRules skip (r :: rest) =
      { ofRules skip rest with
        deny := c.formula :: (ofRules skip rest).deny
        documents := c.document :: (ofRules skip rest).documents } := by
  rw [ofRules, h, effect]

theorem deny_skipping (rules : List Rule) : (ofRules true rules).deny = [] := by
  cases rules with
  | nil => rfl
  | cons r rest => rw [ofRules_unconditioned rest rfl]

end Gathered

namespace Rule

/-- Where conditions count, the condition that counts is the rule's own. -/
theorem activeCondition_counting (r : Rule) : r.activeCondition false = r.condition := rfl

theorem activeCondition_eq_some_iff {r : Rule} {skip : Bool} {c : Condition} :
    r.activeCondition skip = some c ↔ skip = false ∧ r.condition = some c := by
  cases skip <;> simp [activeCondition]

theorem decides_unconditioned {r : Rule} {skip : Bool} (subject : Subject)
    (h : r.activeCondition skip = none) : r.decides subject skip = true := by
  rw [decides, h]

theorem decides_item {r : Rule} {skip : Bool} {c : Condition} (type : String) (fields : Document)
    (h : r.activeCondition skip = some c) :
    r.decides (.item type fields) skip = c.formula.holds fields := by
  rw [decides, h]
  rfl

end Rule

/-- Whether the first of the rules that decides the check allows it. -/
def Rule.firstAllows (skip : Bool) (subject : Subject) (rules : List Rule) : Bool :=
  (rules.find? (·.decides subject skip)).any (·.effect == .allow)

theorem Ability.can_eq (a : Ability) (action : String) (subject : Subject) :
    a.can action subject =
      Rule.firstAllows a.skipConditions subject (a.rulesFor action subject.type) := by
  rw [Ability.can, Ability.decidingRule?_eq, Rule.firstAllows]

namespace Rule

theorem firstAllows_cons (skip : Bool) (subject : Subject) (r : Rule) (rest : List Rule) :
    firstAllows skip subject (r :: rest) =
      if r.decides subject skip then r.effect == .allow else firstAllows skip subject rest := by
  unfold firstAllows
  rw [List.find?_cons]
  cases r.decides subject skip <;> rfl

/-- Where no exception holds, the alternatives say what the first rule that decides says. -/
theorem firstAllows_eq_gathered (skip : Bool) (type : String) (fields : Document)
    (rules : List Rule)
    (clear : (Gathered.ofRules skip rules).deny.any (Formula.holds fields) = false) :
    firstAllows skip (.item type fields) rules =
      ((Gathered.ofRules skip rules).unrestricted ||
        (Gathered.ofRules skip rules).allow.any (Formula.holds fields)) := by
  induction rules with
  | nil => rfl
  | cons r rest ih =>
    rw [firstAllows_cons]
    cases active : r.activeCondition skip with
    | none =>
      rw [decides_unconditioned _ active, Gathered.ofRules_unconditioned rest active]
      simp
    | some c =>
      rw [decides_item type fields active]
      cases effect : r.effect with
      | allow =>
        rw [Gathered.ofRules_allow rest active effect] at clear ⊢
        rw [ih clear, List.any_cons]
        cases c.formula.holds fields <;> simp
      | deny =>
        rw [Gathered.ofRules_deny rest active effect] at clear ⊢
        simp only [List.any_cons, Bool.or_eq_false_iff] at clear
        rw [ih clear.2, clear.1]
        rfl

end Rule

/-! ### Exceptions -/

namespace Ability

/-- Conditions count, and some rule denies under one that the fields satisfy and was registered
after every rule without a condition that is about the action on the type. -/
def Excepts (a : Ability) (action type : String) (fields : Document) : Prop :=
  a.skipConditions = false ∧
    ∃ older r newer c, a.rules = older ++ r :: newer ∧
      r.appliesTo action type ∧ r.effect = .deny ∧
      r.condition = some c ∧ c.formula.holds fields ∧
      ∀ s ∈ newer, s.appliesTo action type → s.condition ≠ none

@[simp] theorem not_excepts_skipping (rules : List Rule) (action type : String)
    (fields : Document) : ¬Excepts ⟨rules, true⟩ action type fields := by
  rintro ⟨counts, -⟩
  cases counts

theorem not_excepts_nil (skip : Bool) (action type : String) (fields : Document) :
    ¬Excepts ⟨[], skip⟩ action type fields := by
  rintro ⟨-, older, r, newer, c, split, -⟩
  simp at split

/-- With one more rule, an exception is that rule or an older one that the rule does not end. -/
theorem excepts_concat (rules : List Rule) (r : Rule) (action type : String)
    (fields : Document) :
    Excepts ⟨rules ++ [r], false⟩ action type fields ↔
      (∃ c, r.appliesTo action type ∧ r.effect = .deny ∧ r.condition = some c ∧
        c.formula.holds fields) ∨
      (r.appliesTo action type → r.condition ≠ none) ∧
        Excepts ⟨rules, false⟩ action type fields := by
  constructor
  · rintro ⟨-, older, s, newer, c, split, applies, deny, active, holds, after⟩
    rcases List.eq_nil_or_concat newer with rfl | ⟨newer, last, rfl⟩
    · obtain ⟨rfl, rest⟩ := List.append_inj' split rfl
      obtain rfl : r = s := by simpa using rest
      exact .inl ⟨c, applies, deny, active, holds⟩
    · have split : rules ++ [r] = (older ++ s :: newer) ++ [last] := by simpa using split
      obtain ⟨rfl, rest⟩ := List.append_inj' split rfl
      obtain rfl : r = last := by simpa using rest
      exact .inr ⟨after r (by simp), rfl, older, s, newer, c, rfl, applies, deny, active, holds,
        fun t ht => after t (by simp [ht])⟩
  · rintro (⟨c, applies, deny, active, holds⟩ | ⟨last, -, older, s, newer, c, split, h⟩)
    · exact ⟨rfl, rules, r, [], c, rfl, applies, deny, active, holds, by simp⟩
    · obtain ⟨applies, deny, active, holds, after⟩ := h
      refine ⟨rfl, older, s, newer ++ [r], c, ?_, applies, deny, active, holds, ?_⟩
      · simp only at split ⊢
        rw [split, List.append_assoc, List.cons_append]
      · intro t ht
        rcases List.mem_append.mp ht with ht | ht
        · exact after t ht
        · obtain rfl : t = r := by simpa using ht
          exact last

theorem rulesFor_concat (rules : List Rule) (r : Rule) (skip : Bool) (action type : String) :
    rulesFor ⟨rules ++ [r], skip⟩ action type =
      if r.appliesTo action type then r :: rulesFor ⟨rules, skip⟩ action type
      else rulesFor ⟨rules, skip⟩ action type := by
  simp only [rulesFor_eq, List.filter_append, List.reverse_append, List.filter_cons,
    List.filter_nil]
  split <;> simp

/-- The exceptions that are gathered are the rules that except. -/
theorem excepts_iff_gathered (rules : List Rule) (skip : Bool) (action type : String)
    (fields : Document) :
    Excepts ⟨rules, skip⟩ action type fields ↔
      (Gathered.ofRules skip (rulesFor ⟨rules, skip⟩ action type)).deny.any
        (Formula.holds fields) := by
  cases skip with
  | true => simp [Gathered.deny_skipping]
  | false =>
    induction rules using List.reverseRecOn with
    | nil => simpa [rulesFor_eq, Gathered.ofRules] using not_excepts_nil false action type fields
    | append_singleton rules r ih =>
      rw [excepts_concat, rulesFor_concat, ih]
      by_cases applies : r.appliesTo action type
      · rw [if_pos applies]
        rw [← r.activeCondition_counting]
        cases active : r.activeCondition false with
        | none => simp [Gathered.ofRules_unconditioned _ active, applies]
        | some c =>
          cases effect : r.effect with
          | allow => simp [Gathered.ofRules_allow _ active effect]
          | deny => simp [Gathered.ofRules_deny _ active effect, applies]
      · simp [applies]

theorem can_item_of_gathered (a : Ability) (action type : String) (fields : Document)
    (clear : ¬a.Excepts action type fields) :
    a.can action (.item type fields) =
      ((Gathered.ofRules a.skipConditions (a.rulesFor action type)).unrestricted ||
        (Gathered.ofRules a.skipConditions (a.rulesFor action type)).allow.any
          (Formula.holds fields)) := by
  rw [can_eq]
  apply Rule.firstAllows_eq_gathered
  rwa [← Bool.not_eq_true, ← excepts_iff_gathered a.rules]

theorem rulesFor_eq_nil_iff (a : Ability) (action type : String) :
    a.rulesFor action type = [] ↔ ∀ r ∈ a.rules, ¬r.appliesTo action type := by
  rw [rulesFor_eq]
  simp [List.filter_eq_nil_iff]

theorem query?_eq_none_iff (a : Ability) (action type : String) :
    a.query? action type = none ↔ a.rulesFor action type = [] := by
  unfold query?
  split <;> simp_all

theorem eq_of_query? {a : Ability} {action type : String} {q : Query}
    (h : a.query? action type = some q) :
    q = ⟨action, type, (Gathered.ofRules a.skipConditions (a.rulesFor action type)).filter,
      (Gathered.ofRules a.skipConditions (a.rulesFor action type)).documents⟩ := by
  unfold query? at h
  split at h
  · simp at h
  · exact (Option.some.inj h).symm

/-- A query admits what the rules allow, less the exceptions. -/
theorem query_admits_iff {a : Ability} {action type : String} {q : Query} (fields : Document)
    (h : a.query? action type = some q) :
    q.admits fields ↔ a.can action (.item type fields) ∧ ¬a.Excepts action type fields := by
  rw [Query.admits, Query.formula, eq_of_query? h, Gathered.holds_filter]
  by_cases excepts : a.Excepts action type fields
  · have := (excepts_iff_gathered a.rules a.skipConditions action type fields).mp excepts
    simp [excepts, this]
  · rw [can_item_of_gathered a action type fields excepts]
    have := mt (excepts_iff_gathered a.rules a.skipConditions action type fields).mpr excepts
    simp [excepts, this]

/-- There is a query exactly when some rule is about the action on the type, and without one nothing
is allowed. A query admits an item exactly when the rules allow it and no exception holds of it. -/
theorem query?_admits_iff (a : Ability) (action type : String) (fields : Document) :
    match a.query? action type with
    | none =>
      (∀ r ∈ a.rules, ¬r.appliesTo action type) ∧ ¬a.can action (.item type fields)
    | some q =>
      (∃ r ∈ a.rules, r.appliesTo action type) ∧
        (q.admits fields ↔ a.can action (.item type fields) ∧ ¬a.Excepts action type fields) := by
  cases h : a.query? action type with
  | none =>
    rw [query?_eq_none_iff] at h
    refine ⟨(rulesFor_eq_nil_iff a action type).mp h, ?_⟩
    rw [can_eq, show Subject.type (.item type fields) = type from rfl, h]
    simp [Rule.firstAllows]
  | some q =>
    refine ⟨?_, query_admits_iff fields h⟩
    by_contra none
    have : a.query? action type = .none := by
      rw [query?_eq_none_iff, rulesFor_eq_nil_iff]
      simpa using none
    rw [this] at h
    simp at h

end Ability

end AccessRules

import AccessRules.Proofs.Filter.Admission

/-! What a type alone settles. A bare type meets no condition, so it gets the answer of the newest
rule without one, and the verdict stands by that answer unless a newer rule with a condition could
say otherwise. Main statements: a settled answer is that of every subject of the type, and the
verdict names the kind of filter that the rules amount to. -/

namespace AccessRules

namespace Rule

/-! ### The answer of a bare type -/

/-- Whether some rule says otherwise than an answer under a condition, and comes before any rule
without one; the rules are given newest first. -/
def contested (answer : Bool) (rules : List Rule) : Bool :=
  (rules.takeWhile fun r => r.condition.isSome).any
    fun r => (r.effect == .allow) != answer

variable {r : Rule} (rest : List Rule)

theorem contested_conditioned {c : Condition} (answer : Bool)
    (h : r.activeCondition false = some c) :
    contested answer (r :: rest) = ((r.effect == .allow) != answer || contested answer rest) := by
  have some : r.condition = some c := h
  rw [contested, List.takeWhile_cons_of_pos (by simp [some]), List.any_cons, contested]

theorem contested_unconditioned (answer : Bool) (h : r.activeCondition false = none) :
    contested answer (r :: rest) = false := by
  have none : r.condition = none := h
  rw [contested, List.takeWhile_cons_of_neg (by simp [none]), List.any_nil]

theorem firstAllows_unconditioned {skip : Bool} (subject : Subject)
    (h : r.activeCondition skip = none) :
    firstAllows skip subject (r :: rest) = (r.effect == .allow) := by
  rw [firstAllows_cons, if_pos (decides_unconditioned subject h)]

theorem firstAllows_bare {skip : Bool} {c : Condition} (type : String)
    (h : r.activeCondition skip = some c) :
    firstAllows skip (.bare type) (r :: rest) = firstAllows skip (.bare type) rest := by
  have undecided : r.decides (.bare type) skip = false := by
    rw [decides, h]
    rfl
  rw [firstAllows_cons, undecided, if_neg Bool.false_ne_true]

/-- An item gets the answer of its bare type where no rule with a condition says otherwise. -/
theorem firstAllows_item {type : String} {answer : Bool} {rules : List Rule}
    (bare : firstAllows false (.bare type) rules = answer)
    (uncontested : contested answer rules = false) (fields : Document) :
    firstAllows false (.item type fields) rules = answer := by
  induction rules with
  | nil => exact bare
  | cons r rest ih =>
    cases active : r.activeCondition false with
    | none =>
      rw [firstAllows_unconditioned rest _ active] at bare ⊢
      exact bare
    | some c =>
      rw [firstAllows_bare rest type active] at bare
      rw [contested_conditioned rest answer active, Bool.or_eq_false_iff] at uncontested
      obtain ⟨same, others⟩ := uncontested
      have same : (r.effect == .allow) = answer := by simpa using same
      rw [firstAllows_cons, ih bare others, same, ite_self]

end Rule

/-! ### The scan -/

namespace Ability

section Scan

variable {r : Rule} (allowed denied : Bool) (rest : List Rule)

theorem scan_conditioned {c : Condition} (h : r.activeCondition false = some c) :
    scan allowed denied (r :: rest) =
      scan (allowed || r.effect == .allow) (denied || r.effect == .deny) rest := by
  rw [scan, show r.condition = some c from h]
  cases r.effect <;> cases allowed <;> cases denied <;> rfl

theorem scan_unconditioned (h : r.activeCondition false = none) :
    scan allowed denied (r :: rest) =
      if r.effect == .allow && denied || r.effect == .deny && allowed then .needsItem
      else .settled (r.effect == .allow) := by
  rw [scan, show r.condition = none from h]
  cases r.effect <;> cases allowed <;> cases denied <;> rfl

/-- A scan settles the answer of the bare type, unless a conditioned rule that it passes, or has
passed, says otherwise. The flags stand for the rules already passed, so they vary along the
scan. -/
theorem scan_eq {type : String} {answer : Bool} {rules : List Rule}
    (bare : Rule.firstAllows false (.bare type) rules = answer) :
    scan allowed denied rules =
      if (if answer then denied else allowed) || Rule.contested answer rules then .needsItem
      else .settled answer := by
  induction rules generalizing allowed denied with
  | nil =>
    obtain rfl : false = answer := bare
    cases allowed <;> rfl
  | cons r rest ih =>
    cases active : r.activeCondition false with
    | none =>
      rw [Rule.firstAllows_unconditioned rest _ active] at bare
      rw [scan_unconditioned _ _ _ active, Rule.contested_unconditioned rest answer active, ← bare]
      cases r.effect <;> cases allowed <;> cases denied <;> rfl
    | some c =>
      rw [Rule.firstAllows_bare rest type active] at bare
      rw [scan_conditioned _ _ _ active, ih _ _ bare,
        Rule.contested_conditioned rest answer active]
      cases answer <;> cases r.effect <;> cases allowed <;> cases denied <;> rfl

end Scan

/-! ### Settled answers -/

section Verdict

variable {a : Ability} {action type : String}

/-- Where conditions count, the verdict is the answer of the bare type unless that is contested. -/
theorem verdict_eq_bare (skip : a.skipConditions = false)
    (some_rule : a.rulesFor action type ≠ []) :
    a.verdict action type =
      if Rule.contested (a.can action (.bare type)) (a.rulesFor action type) then .needsItem
      else .settled (a.can action (.bare type)) := by
  unfold verdict
  split
  case h_1 none => exact absurd none some_rule
  case h_2 newest older rules =>
    have bare : Rule.firstAllows false (.bare type) (newest :: older) =
        a.can action (.bare type) := by
      rw [can_eq, skip, show Subject.type (.bare type) = type from rfl, rules]
    rw [skip, if_neg Bool.false_ne_true, scan_eq _ _ bare, ite_self, Bool.false_or, rules]

theorem verdict_skip {newest : Rule} {older : List Rule} (skip : a.skipConditions = true)
    (rules : a.rulesFor action type = newest :: older) :
    a.verdict action type = .settled (newest.effect == .allow) := by
  rw [verdict, rules, skip]
  rfl

theorem can_skip {subject : Subject} {newest : Rule} {older : List Rule}
    (skip : a.skipConditions = true) (rules : a.rulesFor action subject.type = newest :: older) :
    a.can action subject = (newest.effect == .allow) := by
  rw [can_eq, skip, rules, Rule.firstAllows_unconditioned older subject rfl]

theorem can_of_noRules {subject : Subject} (none : a.rulesFor action subject.type = []) :
    a.can action subject = false := by
  rw [can_eq, none]
  rfl

end Verdict

/-- Where no rule is about the action and type, nothing is allowed; a settled answer is that of the
bare type and of every item; and an item is only asked for where conditions count and one of them
contests the answer of the bare type. -/
theorem verdict_sound (a : Ability) (action type : String) :
    match a.verdict action type with
    | .noRules =>
      a.can action (.bare type) = false ∧ ∀ fields, a.can action (.item type fields) = false
    | .settled answer =>
      a.can action (.bare type) = answer ∧ ∀ fields, a.can action (.item type fields) = answer
    | .needsItem =>
      a.skipConditions = false ∧
        Rule.contested (a.can action (.bare type)) (a.rulesFor action type) = true := by
  by_cases none : a.rulesFor action type = []
  · rw [verdict, none]
    exact ⟨can_of_noRules none, fun fields => can_of_noRules none⟩
  · cases skip : a.skipConditions with
    | true =>
      obtain ⟨newest, older, rules⟩ := List.exists_cons_of_ne_nil none
      rw [verdict_skip skip rules]
      exact ⟨can_skip skip rules, fun fields => can_skip skip rules⟩
    | false =>
      rw [verdict_eq_bare skip none]
      cases contested :
          Rule.contested (a.can action (.bare type)) (a.rulesFor action type) with
      | true =>
        rw [if_pos rfl]
        exact ⟨rfl, rfl⟩
      | false =>
        rw [if_neg Bool.false_ne_true]
        refine ⟨rfl, fun fields => ?_⟩
        rw [can_eq, skip]
        refine Rule.firstAllows_item ?_ contested fields
        rw [can_eq, skip]
        rfl

end Ability

/-! ### Verdicts and filters -/

/-- The answer that a filter gives for the whole type, if it gives one. -/
def Filter.verdict (filter : Filter) : Verdict :=
  if filter.isUnrestricted then .settled true
  else if filter.isForbidden then .settled false
  else .needsItem

section Filter

variable (filter : Filter)

theorem Filter.verdict_ne_noRules : filter.verdict ≠ .noRules := by
  unfold verdict
  split
  · simp
  · split <;> simp

theorem Filter.verdict_eq_grant_iff : filter.verdict = .settled true ↔ filter.isUnrestricted := by
  unfold verdict
  split
  case isTrue unrestricted => simp [unrestricted]
  case isFalse restricted => split <;> simp [restricted]

theorem Filter.verdict_eq_denial_iff : filter.verdict = .settled false ↔ filter.isForbidden := by
  cases filter with
  | forbidden => exact iff_of_true rfl rfl
  | select allow deny =>
    unfold verdict
    split <;> simp [isForbidden]

theorem Filter.verdict_eq_needsItem_iff :
    filter.verdict = .needsItem ↔ ¬filter.isUnrestricted ∧ ¬filter.isForbidden := by
  unfold verdict
  split
  case isTrue unrestricted => simp [unrestricted]
  case isFalse restricted => split <;> simp_all

end Filter

namespace Gathered

/-- The bare type is allowed exactly where the reading ends in a rule that allows. -/
theorem unrestricted_ofRules (skip : Bool) (type : String) (rules : List Rule) :
    (ofRules skip rules).unrestricted = Rule.firstAllows skip (.bare type) rules := by
  induction rules with
  | nil => rfl
  | cons r rest ih =>
    cases active : r.activeCondition skip with
    | none =>
      rw [ofRules_unconditioned rest active, Rule.firstAllows_unconditioned rest _ active]
    | some c =>
      rw [Rule.firstAllows_bare rest type active, ← ih]
      cases effect : r.effect with
      | allow => rw [ofRules_allow rest active effect]
      | deny => rw [ofRules_deny rest active effect]

/-- What contests a grant is gathered as an exception, and what contests a denial as an
alternative. -/
theorem contested_eq (answer : Bool) (rules : List Rule) :
    Rule.contested answer rules =
      if answer then !(ofRules false rules).deny.isEmpty
      else !(ofRules false rules).allow.isEmpty := by
  induction rules with
  | nil => cases answer <;> rfl
  | cons r rest ih =>
    cases active : r.activeCondition false with
    | none =>
      rw [Rule.contested_unconditioned rest answer active, ofRules_unconditioned rest active]
      cases answer <;> rfl
    | some c =>
      rw [Rule.contested_conditioned rest answer active, ih]
      cases effect : r.effect with
      | allow =>
        rw [ofRules_allow rest active effect]
        cases answer <;> rfl
      | deny =>
        rw [ofRules_deny rest active effect]
        cases answer <;> rfl

theorem verdict_filter (g : Gathered) :
    g.filter.verdict =
      if (if g.unrestricted then !g.deny.isEmpty else !g.allow.isEmpty) then .needsItem
      else .settled g.unrestricted := by
  obtain ⟨allow, deny, documents, unrestricted⟩ := g
  cases unrestricted with
  | true => cases deny <;> rfl
  | false => cases allow <;> rfl

end Gathered

namespace Ability

/-- The verdict is the one that the filter gives, where there is a filter. -/
theorem verdict_eq_query (a : Ability) (action type : String) :
    a.verdict action type = ((a.query? action type).map (·.filter.verdict)).getD .noRules := by
  unfold query?
  cases rules : a.rulesFor action type with
  | nil => rw [verdict, rules]; rfl
  | cons newest older =>
    rw [Option.map_some, Option.getD_some, Gathered.verdict_filter]
    cases skip : a.skipConditions with
    | true =>
      rw [verdict_skip skip rules, Gathered.ofRules_unconditioned older rfl]
      cases newest.effect <;> rfl
    | false =>
      have bare : a.can action (.bare type) =
          (Gathered.ofRules false (newest :: older)).unrestricted := by
        rw [Gathered.unrestricted_ofRules false type, can_eq, skip, ← rules]
        rfl
      rw [verdict_eq_bare skip (by rw [rules]; exact List.cons_ne_nil _ _), rules, bare,
        Gathered.contested_eq]

/-- No verdict for want of rules where there is no query, a settled grant where the query has no
restriction, a settled denial where it admits nothing, and an item is asked for by every other
query. -/
theorem verdict_classifies_query (a : Ability) (action type : String) :
    (a.verdict action type = .noRules ↔ a.query? action type = none) ∧
    (a.verdict action type = .settled true ↔
      ∃ q, a.query? action type = some q ∧ q.filter.isUnrestricted) ∧
    (a.verdict action type = .settled false ↔
      ∃ q, a.query? action type = some q ∧ q.filter.isForbidden) ∧
    (a.verdict action type = .needsItem ↔
      ∃ q, a.query? action type = some q ∧ ¬q.filter.isUnrestricted ∧ ¬q.filter.isForbidden) := by
  rw [verdict_eq_query]
  cases a.query? action type with
  | none => simp
  | some q =>
    simp only [Option.map_some, Option.getD_some, Option.some.injEq, exists_eq_left']
    exact ⟨iff_of_false q.filter.verdict_ne_noRules (by simp), q.filter.verdict_eq_grant_iff,
      q.filter.verdict_eq_denial_iff, q.filter.verdict_eq_needsItem_iff⟩

end Ability

end AccessRules

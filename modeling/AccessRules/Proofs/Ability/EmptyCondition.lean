import AccessRules.Proofs.Ability.Layers
import AccessRules.Proofs.RuleStore.Lookup

/-! Conditions without fields. Every item satisfies such a condition, but a rule that was read with
one counts as conditioned: it says nothing about a bare type, and readings go on past it. Main
statement: what becomes of each answer when the condition is dropped. Where the rule is not read,
since conditions are skipped, it is about something else or a newer rule without a condition comes
first, nothing does. -/

namespace AccessRules

/-- The rule without its condition. -/
def Rule.always (r : Rule) : Rule := { r with condition := none }

/-- The condition of a rule counts for an action on a type, and no newer rule keeps it from being
read. -/
structure Rule.InSight (r : Rule) (newer : List Rule) (skip : Bool) (action type : String) :
    Prop where
  counts : skip = false
  applies : r.appliesTo action type
  reached : ∀ s ∈ newer, s.appliesTo action type → s.condition ≠ none

theorem Rule.InSight.leaveOpen {r : Rule} {newer : List Rule} {skip : Bool} {action type : String}
    (sight : r.InSight newer skip action type) : LeaveOpen skip action type newer := by
  obtain ⟨rfl, -, reached⟩ := sight
  exact reached

theorem Rule.decides_of_empty {r : Rule} (empty : r.condition = some (.ofDocument []))
    (type : String) (fields : Document) (skip : Bool) : r.decides (.item type fields) skip := by
  cases skip with
  | true => exact decides_unconditioned _ rfl
  | false =>
    have active : r.activeCondition false = some (.ofDocument []) := empty
    rw [decides_item type fields active, Condition.formula_ofDocument, Formula.ofDocument,
      Formula.holds_conjunction]
    rfl

namespace Ability

variable {r : Rule} {skip : Bool} {action type : String} (older newer : List Rule)

/-- A rule that decides each check that it is about may as well have no condition. -/
theorem can_always {subject : Subject}
    (decides : r.appliesTo action subject.type → r.decides subject skip) :
    can ⟨older ++ r :: newer, skip⟩ action subject =
      can ⟨older ++ r.always :: newer, skip⟩ action subject := by
  rw [List.append_cons older r, List.append_cons older r.always]
  refine can_append_congr newer ?_
  have decided : r.always.decides subject skip = true :=
    Rule.decides_unconditioned subject (by cases skip <;> rfl)
  have about : r.always.appliesTo action subject.type = r.appliesTo action subject.type := rfl
  rw [can_concat, can_concat, decided, about]
  cases applies : r.appliesTo action subject.type with
  | false => rfl
  | true =>
    rw [decides applies]
    rfl

theorem rulesFor_insert (r : Rule) (skip : Bool) (action type : String) :
    rulesFor ⟨older ++ r :: newer, skip⟩ action type =
      rulesFor ⟨newer, skip⟩ action type ++
        if r.appliesTo action type then r :: rulesFor ⟨older, skip⟩ action type
        else rulesFor ⟨older, skip⟩ action type := by
  rw [List.append_cons, rulesFor_append, rulesFor_concat]

theorem rulesFor_always_eq_nil_iff :
    rulesFor ⟨older ++ r :: newer, skip⟩ action type = [] ↔
      rulesFor ⟨older ++ r.always :: newer, skip⟩ action type = [] := by
  have about : r.always.appliesTo action type = r.appliesTo action type := rfl
  rw [rulesFor_insert, rulesFor_insert, about]
  split <;> simp

theorem excepts_always {fields : Document} :
    Excepts ⟨older ++ r.always :: newer, skip⟩ action type fields ↔
      Excepts ⟨newer, skip⟩ action type fields ∨
        Rule.LeaveOpen skip action type newer ∧ ¬r.appliesTo action type ∧
          Excepts ⟨older, skip⟩ action type fields := by
  cases skip with
  | true => simp
  | false =>
    have unconditioned : r.always.condition = none := rfl
    have about : r.always.appliesTo action type = r.appliesTo action type := rfl
    rw [List.append_cons, excepts_append, excepts_concat, unconditioned, about]
    simp

/-- Where the rule is not read, or only for checks that it decides, its condition makes no
difference. -/
theorem agrees_always (hidden : ¬r.InSight newer skip action type) :
    Agrees ⟨older ++ r :: newer, skip⟩ ⟨older ++ r.always :: newer, skip⟩ action type := by
  by_cases leaveOpen : Rule.LeaveOpen skip action type newer
  · have skipped : r.appliesTo action type → skip = true := by
      intro applies
      by_contra counts
      obtain rfl : skip = false := by simpa using counts
      exact hidden ⟨rfl, applies, leaveOpen⟩
    refine agrees_of_scans rfl (rulesFor_always_eq_nil_iff older newer) ?_ ?_ ?_
    · rintro subject rfl
      refine can_always older newer fun applies => ?_
      rw [skipped applies]
      exact Rule.decides_unconditioned subject rfl
    · rintro rfl answer
      have other : r.appliesTo action type = false := by simpa using skipped
      have about : r.always.appliesTo action type = false := other
      simp only [rulesFor_insert, other, about, Bool.false_eq_true, if_false]
    · intro fields
      cases skip with
      | true => simp
      | false =>
        have other : r.appliesTo action type = false := by simpa using skipped
        rw [excepts_always, List.append_cons, excepts_append, excepts_concat]
        simp [other]
  · rw [List.append_cons older r, List.append_cons older r.always]
    exact agrees_of_closed leaveOpen _ _

section InSight

variable (empty : r.condition = some (.ofDocument []))
  (sight : r.InSight newer skip action type)

include empty sight

theorem excepts_of_empty {fields : Document} :
    Excepts ⟨older ++ r :: newer, skip⟩ action type fields ↔
      Excepts ⟨newer, skip⟩ action type fields ∨ r.effect = .deny ∨
        Excepts ⟨older, skip⟩ action type fields := by
  have leaveOpen := sight.leaveOpen
  obtain ⟨rfl, applies, -⟩ := sight
  have active : r.activeCondition false = some (.ofDocument []) := empty
  have holds : (Formula.ofDocument []).holds fields = true := by
    rw [← Condition.formula_ofDocument, ← Rule.decides_item type fields active]
    exact Rule.decides_of_empty empty type fields false
  rw [List.append_cons, excepts_append, excepts_concat]
  simp [empty, applies, leaveOpen, holds]

theorem can_bare_of_empty :
    can ⟨older ++ r :: newer, skip⟩ action (.bare type) =
      can ⟨older, skip⟩ action (.bare type) := by
  have leaveOpen := sight.leaveOpen
  obtain ⟨rfl, applies, -⟩ := sight
  have active : r.activeCondition false = some (.ofDocument []) := empty
  have undecided : r.decides (.bare type) false = false := by
    rw [Rule.decides, active]
    rfl
  rw [List.append_cons, can_append, decidingRule?_bare_of_leaveOpen leaveOpen, can_concat,
    undecided, Bool.and_false]
  rfl

omit empty in
theorem can_bare_always :
    can ⟨older ++ r.always :: newer, skip⟩ action (.bare type) = (r.effect == .allow) := by
  have leaveOpen := sight.leaveOpen
  obtain ⟨rfl, applies, -⟩ := sight
  have about : r.always.appliesTo action (Subject.type (.bare type)) = true := applies
  rw [List.append_cons, can_append, decidingRule?_bare_of_leaveOpen leaveOpen, can_concat, about]
  rfl

theorem admits_of_empty {fields : Document} :
    admits ⟨older ++ r :: newer, skip⟩ action type fields ↔
      admits ⟨older ++ r.always :: newer, skip⟩ action type fields ∧ r.effect = .allow ∧
        ¬Excepts ⟨older, skip⟩ action type fields := by
  have same : can ⟨older ++ r :: newer, skip⟩ action (.item type fields) =
      can ⟨older ++ r.always :: newer, skip⟩ action (.item type fields) :=
    can_always older newer fun _ => Rule.decides_of_empty empty type fields skip
  have allow : r.effect = .allow ↔ ¬r.effect = .deny := by cases r.effect <;> simp
  rw [admits_iff, admits_iff, excepts_of_empty older newer empty sight, excepts_always, same, allow]
  simp only [sight.applies, not_true_eq_false, false_and, and_false, or_false, not_or]
  tauto

theorem settled_always_of_inSight {answer : Bool}
    (settled : verdict ⟨older ++ r :: newer, skip⟩ action type = .settled answer) :
    verdict ⟨older ++ r.always :: newer, skip⟩ action type = .settled answer := by
  rw [verdict_eq_settled_iff] at settled ⊢
  obtain ⟨some_rule, -, uncontested⟩ := settled
  have some_rule' := mt (rulesFor_always_eq_nil_iff older newer).mpr some_rule
  have bare := can_bare_always older newer sight
  have leaveOpen := sight.leaveOpen
  obtain ⟨rfl, applies, -⟩ := sight
  have active : r.activeCondition false = some (.ofDocument []) := empty
  have conditioned := conditioned_of_leaveOpen leaveOpen
  have uncontested := uncontested rfl
  rw [rulesFor_insert, if_pos applies, Rule.contested_append answer _ conditioned,
    Rule.contested_conditioned _ answer active, Bool.or_eq_false_iff,
    Bool.or_eq_false_iff] at uncontested
  obtain ⟨above, same, -⟩ := uncontested
  have gives : (r.effect == .allow) = answer := by simpa using same
  have applies' : r.always.appliesTo action type = true := applies
  refine ⟨some_rule', bare.trans gives, fun _ => ?_⟩
  rw [rulesFor_insert, if_pos applies', Rule.contested_append answer _ conditioned, above,
    Rule.contested_unconditioned _ answer rfl, Bool.or_false]

end InSight

/-- What dropping a condition without fields does. Items get the same answers, there is a query as
before, and what was settled stays so. Unless the rule is in sight, nothing changes at all. If it
is, the bare type gets the answer of the rule in place of that of older rules, and the filter admits
what it would without the condition only where the rule allows and no older exception holds. -/
theorem always_of_empty {r : Rule} (empty : r.condition = some (.ofDocument []))
    (older newer : List Rule) (skip : Bool) (action type : String) :
    let a : Ability := ⟨older ++ r :: newer, skip⟩
    let b : Ability := ⟨older ++ r.always :: newer, skip⟩
    (∀ fields, a.can action (.item type fields) = b.can action (.item type fields)) ∧
    (a.query? action type = none ↔ b.query? action type = none) ∧
    (∀ answer, a.verdict action type = .settled answer → b.verdict action type = .settled answer) ∧
    (¬r.InSight newer skip action type → a.Agrees b action type) ∧
    (r.InSight newer skip action type →
      a.can action (.bare type) = can ⟨older, skip⟩ action (.bare type) ∧
      b.can action (.bare type) = (r.effect == .allow) ∧
      ∀ fields, a.admits action type fields ↔
        b.admits action type fields ∧ r.effect = .allow ∧
          ¬Excepts ⟨older, skip⟩ action type fields) := by
  intro a b
  refine ⟨fun fields => ?_, ?_, fun answer settled => ?_, agrees_always older newer,
    fun sight => ?_⟩
  · exact can_always older newer fun _ => Rule.decides_of_empty empty type fields skip
  · rw [query?_eq_none_iff, query?_eq_none_iff]
    exact rulesFor_always_eq_nil_iff older newer
  · by_cases sight : r.InSight newer skip action type
    · exact settled_always_of_inSight older newer empty sight settled
    · rw [← (agrees_always older newer sight).verdict]
      exact settled
  · exact ⟨can_bare_of_empty older newer empty sight, can_bare_always older newer sight,
      fun fields => admits_of_empty older newer empty sight⟩

/-- A grant with an empty condition between a denial and a grant with conditions on the owner. -/
theorem always_of_empty_owner :
    let banned : Rule := (Rule.deny "read" "T").under [("owner", .text "x")]
    let r : Rule := ⟨"read", "T", .allow, some (.ofDocument []), none⟩
    let own : Rule := (Rule.allow "read" "T").under [("owner", .text "u")]
    r.condition = some (.ofDocument []) ∧ r.InSight [own] false "read" "T" ∧
      can ⟨[banned, r, own], false⟩ "read" (.bare "T") = false ∧
      can ⟨[banned, r.always, own], false⟩ "read" (.bare "T") = true ∧
      (admits ⟨[banned, r, own], false⟩ "read" "T" [("owner", .text "v")] ↔
        admits ⟨[banned, r.always, own], false⟩ "read" "T" [("owner", .text "v")] ∧
          ¬Excepts ⟨[banned], false⟩ "read" "T" [("owner", .text "v")]) := by
  intro banned r own
  have sight : r.InSight [own] false "read" "T" := by
    refine ⟨rfl, rfl, ?_⟩
    rintro s mem - unconditioned
    obtain rfl := List.mem_singleton.mp mem
    cases unconditioned
  obtain ⟨-, -, -, -, seen⟩ := always_of_empty (r := r) rfl [banned] [own] false "read" "T"
  obtain ⟨withheld, given, filtered⟩ := seen sight
  have filtered := filtered [("owner", .text "v")]
  rw [and_iff_right (show r.effect = .allow from rfl)] at filtered
  exact ⟨rfl, sight, withheld, given, filtered⟩

/-- A rule read with an empty condition withholds from the bare type what the same rule without one
allows, asks for an item where that settles the answer, and leaves to an exception what that
overrides; a rule that is made with an empty condition is made without one. -/
theorem empty_condition_withholds_type :
    let r : Rule := ⟨"read", "T", .allow, some (.ofDocument []), none⟩
    let archived : Rule := (Rule.deny "read" "T").under [("status", .text "archived")]
    Rule.ofValue? (.object [("action", .text "read"), ("subject", .text "T"),
        ("conditions", .object [])]) = some r ∧ (Rule.allow "read" "T").under [] = r.always ∧
      (can ⟨[r], false⟩ "read" (.bare "T") = false ∧
        can ⟨[r.always], false⟩ "read" (.bare "T") = true) ∧
      (verdict ⟨[r], false⟩ "read" "T" = .needsItem ∧
        verdict ⟨[r.always], false⟩ "read" "T" = .settled true) ∧
      admits ⟨[archived, r], false⟩ "read" "T" [("status", .text "archived")] = false ∧
        admits ⟨[archived, r.always], false⟩ "read" "T" [("status", .text "archived")] = true := by
  refine ⟨rfl, rfl, ?_, ?_, ?_⟩ <;> decide +kernel

end Ability

end AccessRules

import AccessRules.Proofs.Ability.Verdict
import Mathlib.Data.List.TakeWhile

/-! Rules in two layers, older ones below newer ones. A check asks the newer layer first, and the
older one only where nothing in the newer decides it. Each scan of the rules splits in this way, so
what a layer below contributes can be told from the layers one by one. Main statement: nothing that
was registered before a rule without a condition is noticed by any check on what that rule is
about. -/

namespace AccessRules

namespace Rule

/-- None of the rules ends a reading of those about the action on the type: each has a condition
that counts, so older rules are read too. -/
def LeaveOpen (skip : Bool) (action type : String) (rules : List Rule) : Prop :=
  ∀ r ∈ rules, r.appliesTo action type → r.activeCondition skip ≠ none

variable {skip : Bool} {action type : String}

theorem not_leaveOpen_iff {rules : List Rule} :
    ¬LeaveOpen skip action type rules ↔
      ∃ r ∈ rules, r.appliesTo action type ∧ r.activeCondition skip = none := by
  simp [LeaveOpen]

theorem leaveOpen_concat (rules : List Rule) (r : Rule) :
    LeaveOpen skip action type (rules ++ [r]) ↔
      LeaveOpen skip action type rules ∧
        (r.appliesTo action type → r.activeCondition skip ≠ none) := by
  simp only [LeaveOpen, List.forall_mem_append, List.forall_mem_singleton]

theorem contested_append (answer : Bool) {newer : List Rule} (older : List Rule)
    (conditioned : ∀ r ∈ newer, r.activeCondition false ≠ none) :
    contested answer (newer ++ older) = (contested answer newer || contested answer older) := by
  induction newer with
  | nil => rfl
  | cons r rest ih =>
    obtain ⟨first, later⟩ := List.forall_mem_cons.mp conditioned
    obtain ⟨c, active⟩ := Option.ne_none_iff_exists'.mp first
    rw [List.cons_append, contested_conditioned _ answer active,
      contested_conditioned _ answer active, ih later, Bool.or_assoc]

theorem contested_append_of_unconditioned (answer : Bool) {newer : List Rule} (older : List Rule)
    {s : Rule} (mem : s ∈ newer) (unconditioned : s.activeCondition false = none) :
    contested answer (newer ++ older) = contested answer newer := by
  induction newer with
  | nil => cases mem
  | cons r rest ih =>
    rw [List.cons_append]
    cases active : r.activeCondition false with
    | none => rw [contested_unconditioned _ answer active, contested_unconditioned _ answer active]
    | some c =>
      have later : s ∈ rest := by
        rcases List.mem_cons.mp mem with rfl | later
        · rw [active] at unconditioned
          cases unconditioned
        · exact later
      rw [contested_conditioned _ answer active, contested_conditioned _ answer active, ih later]

theorem contested_iff (answer : Bool) {rules : List Rule}
    (conditioned : ∀ r ∈ rules, r.activeCondition false ≠ none) :
    contested answer rules ↔ ∃ r ∈ rules, (r.effect == .allow) ≠ answer := by
  have all : rules.takeWhile (fun r => r.condition.isSome) = rules := by
    rw [List.takeWhile_eq_self_iff]
    intro r mem
    exact Option.isSome_iff_ne_none.mpr (conditioned r mem)
  rw [contested, all, List.any_eq_true]
  simp only [bne_iff_ne]

end Rule

namespace Ability

variable {skip : Bool} {action type : String}

theorem mem_rulesFor {a : Ability} {r : Rule} :
    r ∈ a.rulesFor action type ↔ r ∈ a.rules ∧ r.appliesTo action type := by
  rw [rulesFor_eq, List.mem_reverse, List.mem_filter]

theorem rulesFor_append (older newer : List Rule) (skip : Bool) (action type : String) :
    rulesFor ⟨older ++ newer, skip⟩ action type =
      rulesFor ⟨newer, skip⟩ action type ++ rulesFor ⟨older, skip⟩ action type := by
  simp only [rulesFor_eq, List.filter_append, List.reverse_append]

theorem conditioned_of_leaveOpen {rules : List Rule}
    (leaveOpen : Rule.LeaveOpen skip action type rules) :
    ∀ r ∈ rulesFor ⟨rules, skip⟩ action type, r.activeCondition skip ≠ none := by
  intro r mem
  obtain ⟨mem, applies⟩ := mem_rulesFor.mp mem
  exact leaveOpen r mem applies

/-! ### Checks -/

section Checks

variable {subject : Subject}

theorem decidingRule?_append (older newer : List Rule) (skip : Bool) (action : String)
    (subject : Subject) :
    decidingRule? ⟨older ++ newer, skip⟩ action subject =
      (decidingRule? ⟨newer, skip⟩ action subject).or
        (decidingRule? ⟨older, skip⟩ action subject) := by
  simp only [decidingRule?_eq, rulesFor_append, List.find?_append]

theorem decidingRule?_eq_none_iff {a : Ability} :
    a.decidingRule? action subject = none ↔
      ∀ r ∈ a.rules, r.appliesTo action subject.type → ¬r.decides subject a.skipConditions := by
  simp only [decidingRule?_eq, List.find?_eq_none, mem_rulesFor, and_imp]

theorem decidingRule?_ne_none_of_unconditioned {a : Ability} {r : Rule} (mem : r ∈ a.rules)
    (applies : r.appliesTo action subject.type)
    (unconditioned : r.activeCondition a.skipConditions = none) :
    a.decidingRule? action subject ≠ none := by
  intro none
  have undecided := decidingRule?_eq_none_iff.mp none r mem applies
  exact undecided (Rule.decides_unconditioned subject unconditioned)

theorem decidingRule?_bare_of_leaveOpen {rules : List Rule}
    (leaveOpen : Rule.LeaveOpen skip action type rules) :
    decidingRule? ⟨rules, skip⟩ action (.bare type) = none := by
  refine decidingRule?_eq_none_iff.mpr fun r mem applies decides => ?_
  obtain ⟨c, active⟩ := Option.ne_none_iff_exists'.mp (leaveOpen r mem applies)
  simp [Rule.decides, active, Subject.fields?] at decides

theorem can_append (older newer : List Rule) (skip : Bool) (action : String) (subject : Subject) :
    can ⟨older ++ newer, skip⟩ action subject =
      ((decidingRule? ⟨newer, skip⟩ action subject).map (·.effect == .allow)).getD
        (can ⟨older, skip⟩ action subject) := by
  rw [can, decidingRule?_append]
  cases decidingRule? ⟨newer, skip⟩ action subject with
  | none => rfl
  | some r => rfl

theorem can_append_mono {older older' : List Rule} (newer : List Rule)
    (h : can ⟨older, skip⟩ action subject → can ⟨older', skip⟩ action subject) :
    can ⟨older ++ newer, skip⟩ action subject → can ⟨older' ++ newer, skip⟩ action subject := by
  rw [can_append, can_append]
  cases decidingRule? ⟨newer, skip⟩ action subject with
  | none => exact h
  | some r => exact id

theorem can_append_congr {older older' : List Rule} (newer : List Rule)
    (h : can ⟨older, skip⟩ action subject = can ⟨older', skip⟩ action subject) :
    can ⟨older ++ newer, skip⟩ action subject = can ⟨older' ++ newer, skip⟩ action subject := by
  rw [can_append, can_append, h]

end Checks

/-! ### Exceptions -/

theorem excepts_append (older newer : List Rule) (skip : Bool) (action type : String)
    (fields : Document) :
    Excepts ⟨older ++ newer, skip⟩ action type fields ↔
      Excepts ⟨newer, skip⟩ action type fields ∨
        Rule.LeaveOpen skip action type newer ∧ Excepts ⟨older, skip⟩ action type fields := by
  cases skip with
  | true => simp
  | false =>
    induction newer using List.reverseRecOn with
    | nil =>
      have none := not_excepts_nil false action type fields
      have leaveOpen : Rule.LeaveOpen false action type [] :=
        fun r mem => absurd mem List.not_mem_nil
      rw [List.append_nil]
      exact ⟨fun older => .inr ⟨leaveOpen, older⟩, fun either => (either.resolve_left none).2⟩
    | append_singleton newer r ih =>
      rw [← List.append_assoc, excepts_concat, ih, excepts_concat, Rule.leaveOpen_concat]
      constructor
      · rintro (here | ⟨last, newer | ⟨leaveOpen, older⟩⟩)
        · exact .inl (.inl here)
        · exact .inl (.inr ⟨last, newer⟩)
        · exact .inr ⟨⟨leaveOpen, last⟩, older⟩
      · rintro ((here | ⟨last, newer⟩) | ⟨⟨leaveOpen, last⟩, older⟩)
        · exact .inl here
        · exact .inr ⟨last, .inl newer⟩
        · exact .inr ⟨last, .inr ⟨leaveOpen, older⟩⟩

theorem excepts_iff {rules : List Rule} (leaveOpen : Rule.LeaveOpen skip action type rules)
    (fields : Document) :
    Excepts ⟨rules, skip⟩ action type fields ↔
      ∃ r ∈ rules, r.appliesTo action type ∧ r.effect = .deny ∧
        r.decides (.item type fields) skip := by
  constructor
  · rintro ⟨counts, older, r, newer, c, split, applies, deny, condition, holds, -⟩
    obtain rfl : skip = false := counts
    have mem : r ∈ rules := by
      rw [show rules = older ++ r :: newer from split]
      exact List.mem_append_cons_self
    have active : r.activeCondition false = some c := condition
    rw [← Rule.decides_item type fields active] at holds
    exact ⟨r, mem, applies, deny, holds⟩
  · rintro ⟨r, mem, applies, deny, decides⟩
    obtain ⟨older, newer, rfl⟩ := List.append_of_mem mem
    obtain ⟨c, active⟩ := Option.ne_none_iff_exists'.mp (leaveOpen r mem applies)
    rw [Rule.decides_item type fields active] at decides
    obtain ⟨rfl, condition⟩ := Rule.activeCondition_eq_some_iff.mp active
    refine ⟨rfl, older, r, newer, c, rfl, applies, deny, condition, decides, fun s later => ?_⟩
    exact leaveOpen s (List.mem_append_right older (List.mem_cons_of_mem r later))

/-! ### Filters -/

/-- Whether there is a query of the action on the type and it admits the item. -/
def admits (a : Ability) (action type : String) (fields : Document) : Bool :=
  (a.query? action type).any (·.admits fields)

theorem admits_iff (a : Ability) (action type : String) (fields : Document) :
    a.admits action type fields ↔
      a.can action (.item type fields) ∧ ¬a.Excepts action type fields := by
  unfold admits
  cases query : a.query? action type with
  | none =>
    have no_rules := (query?_eq_none_iff a action type).mp query
    have denied : a.can action (.item type fields) = false := can_of_noRules no_rules
    simp [denied]
  | some q => exact query_admits_iff fields query

section Verdicts

variable {a : Ability}

theorem verdict_eq_noRules_iff :
    a.verdict action type = .noRules ↔ a.query? action type = none := by
  rw [verdict_eq_query]
  cases a.query? action type with
  | none => simp
  | some q => simpa using q.filter.verdict_ne_noRules

theorem verdict_eq_denial_iff :
    a.verdict action type = .settled false ↔ (a.query? action type).any (·.filter.isForbidden) := by
  rw [verdict_eq_query]
  cases a.query? action type with
  | none => simp
  | some q => exact q.filter.verdict_eq_denial_iff

theorem verdict_eq_grant_iff :
    a.verdict action type = .settled true ↔
      (a.query? action type).any (·.filter.isUnrestricted) := by
  rw [verdict_eq_query]
  cases a.query? action type with
  | none => simp
  | some q => exact q.filter.verdict_eq_grant_iff

/-- The verdict is the answer of the bare type, unless there is no rule or conditions count and one
of them contests that answer. -/
theorem verdict_eq (a : Ability) (action type : String) :
    a.verdict action type =
      if a.rulesFor action type = [] then .noRules
      else if !a.skipConditions &&
        Rule.contested (a.can action (.bare type)) (a.rulesFor action type) then .needsItem
      else .settled (a.can action (.bare type)) := by
  cases rules : a.rulesFor action type with
  | nil =>
    rw [verdict, rules]
    rfl
  | cons newest older =>
    rw [if_neg (List.cons_ne_nil newest older)]
    cases skip : a.skipConditions with
    | true =>
      have bare : a.can action (.bare type) = (newest.effect == .allow) := can_skip skip rules
      rw [verdict_skip skip rules, bare]
      rfl
    | false =>
      rw [verdict_eq_bare skip (by rw [rules]; exact List.cons_ne_nil newest older), rules]
      rfl

theorem verdict_eq_settled_iff {answer : Bool} :
    a.verdict action type = .settled answer ↔
      a.rulesFor action type ≠ [] ∧ a.can action (.bare type) = answer ∧
        (a.skipConditions = false →
          Rule.contested answer (a.rulesFor action type) = false) := by
  rw [verdict_eq]
  by_cases none : a.rulesFor action type = []
  · simp [none]
  · rw [if_neg none]
    constructor
    · intro settled
      split at settled
      case isTrue => cases settled
      case isFalse uncontested =>
        obtain rfl := Verdict.settled.inj settled
        refine ⟨none, rfl, fun skip => ?_⟩
        simpa [skip] using uncontested
    · rintro ⟨-, rfl, uncontested⟩
      rw [if_neg]
      cases skip : a.skipConditions with
      | true => simp
      | false => simp [uncontested skip]

end Verdicts

/-! ### Agreement -/

/-- Two abilities give the same answers about an action on a type, save which rule they rest on. -/
structure Agrees (a b : Ability) (action type : String) : Prop where
  bare : a.can action (.bare type) = b.can action (.bare type)
  item : ∀ fields, a.can action (.item type fields) = b.can action (.item type fields)
  verdict : a.verdict action type = b.verdict action type
  query : a.query? action type = none ↔ b.query? action type = none
  forbidden : (a.query? action type).any (·.filter.isForbidden) =
    (b.query? action type).any (·.filter.isForbidden)
  unrestricted : (a.query? action type).any (·.filter.isUnrestricted) =
    (b.query? action type).any (·.filter.isUnrestricted)
  admits : ∀ fields, a.admits action type fields = b.admits action type fields

theorem agrees_of_verdict {a b : Ability}
    (can : ∀ subject : Subject, subject.type = type → a.can action subject = b.can action subject)
    (verdict : a.verdict action type = b.verdict action type)
    (excepts : ∀ fields, a.Excepts action type fields ↔ b.Excepts action type fields) :
    a.Agrees b action type := by
  have item : ∀ fields, a.can action (.item type fields) = b.can action (.item type fields) :=
    fun fields => can (.item type fields) rfl
  refine ⟨can (.bare type) rfl, item, verdict, ?_, ?_, ?_, fun fields => ?_⟩
  · rw [← verdict_eq_noRules_iff, ← verdict_eq_noRules_iff, verdict]
  · rw [Bool.eq_iff_iff, ← verdict_eq_denial_iff, ← verdict_eq_denial_iff, verdict]
  · rw [Bool.eq_iff_iff, ← verdict_eq_grant_iff, ← verdict_eq_grant_iff, verdict]
  · rw [Bool.eq_iff_iff, admits_iff, admits_iff, item, excepts]

/-- The scans for the rule that decides, for what contests it and for exceptions settle all of the
answers. -/
theorem agrees_of_scans {a b : Ability} (skip : a.skipConditions = b.skipConditions)
    (rules : a.rulesFor action type = [] ↔ b.rulesFor action type = [])
    (can : ∀ subject : Subject, subject.type = type → a.can action subject = b.can action subject)
    (contested : a.skipConditions = false → ∀ answer,
      Rule.contested answer (a.rulesFor action type) =
        Rule.contested answer (b.rulesFor action type))
    (excepts : ∀ fields, a.Excepts action type fields ↔ b.Excepts action type fields) :
    a.Agrees b action type := by
  refine agrees_of_verdict can ?_ excepts
  rw [verdict_eq, verdict_eq, can (.bare type) rfl, ← skip]
  simp only [rules]
  cases conditions : a.skipConditions with
  | true => rfl
  | false => rw [contested conditions]

/-- What was registered before a rule without a condition makes no difference to what that rule is
about. -/
theorem agrees_of_closed {newer : List Rule} (closed : ¬Rule.LeaveOpen skip action type newer)
    (older older' : List Rule) :
    Agrees ⟨older ++ newer, skip⟩ ⟨older' ++ newer, skip⟩ action type := by
  obtain ⟨s, mem, applies, unconditioned⟩ := Rule.not_leaveOpen_iff.mp closed
  refine agrees_of_scans rfl ?_ ?_ ?_ ?_
  · have found : rulesFor ⟨newer, skip⟩ action type ≠ [] :=
      List.ne_nil_of_mem (mem_rulesFor.mpr ⟨mem, applies⟩)
    simp [rulesFor_append, found]
  · rintro subject rfl
    have decided : decidingRule? ⟨newer, skip⟩ action subject ≠ none :=
      decidingRule?_ne_none_of_unconditioned mem applies unconditioned
    obtain ⟨r, decided⟩ := Option.ne_none_iff_exists'.mp decided
    rw [can_append, can_append, decided]
    rfl
  · rintro rfl answer
    have mem : s ∈ rulesFor ⟨newer, false⟩ action type := mem_rulesFor.mpr ⟨mem, applies⟩
    rw [rulesFor_append, rulesFor_append,
      Rule.contested_append_of_unconditioned answer _ mem unconditioned,
      Rule.contested_append_of_unconditioned answer _ mem unconditioned]
  · intro fields
    rw [excepts_append, excepts_append]
    simp only [closed, false_and, or_false]

end Ability

end AccessRules

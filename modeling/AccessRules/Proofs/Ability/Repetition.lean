import AccessRules.Proofs.Ability.Layers
import AccessRules.Roles

/-! Rules that are registered again. Roles that are applied twice register their rules twice, and
every copy is kept. Main statement: where each rule of a block has a copy that is registered later,
no check, verdict or filter tells whether the block is there, whatever else is registered before,
between and after. -/

namespace AccessRules

/-- The same items satisfy both conditions. -/
def Condition.Equivalent (c d : Condition) : Prop :=
  ∀ fields, c.formula.holds fields = d.formula.holds fields

/-- The second rule says what the first one says; their reasons may differ. -/
structure Rule.Repeats (r s : Rule) : Prop where
  action : s.action = r.action
  subject : s.subject = r.subject
  effect : s.effect = r.effect
  condition : Option.Rel Condition.Equivalent r.condition s.condition

namespace Rule.Repeats

variable {r s : Rule}

theorem of_condition_eq (action : s.action = r.action) (subject : s.subject = r.subject)
    (effect : s.effect = r.effect) (condition : s.condition = r.condition) : r.Repeats s := by
  refine ⟨action, subject, effect, ?_⟩
  rw [condition]
  cases r.condition with
  | none => exact .none
  | some c => exact .some fun _ => rfl

theorem appliesTo_eq (h : r.Repeats s) (action type : String) :
    s.appliesTo action type = r.appliesTo action type := by
  rw [appliesTo, appliesTo, concerns, concerns, h.action, h.subject]

theorem activeCondition (h : r.Repeats s) (skip : Bool) :
    Option.Rel Condition.Equivalent (r.activeCondition skip) (s.activeCondition skip) := by
  cases skip with
  | true => exact .none
  | false => exact h.condition

theorem activeCondition_eq_none (h : r.Repeats s) {skip : Bool}
    (unconditioned : r.activeCondition skip = none) : s.activeCondition skip = none := by
  have same := h.activeCondition skip
  rw [unconditioned] at same
  generalize s.activeCondition skip = d at same ⊢
  cases same
  rfl

theorem decides_eq (h : r.Repeats s) (subject : Subject) (skip : Bool) :
    s.decides subject skip = r.decides subject skip := by
  have same := h.activeCondition skip
  rw [decides, decides]
  generalize r.activeCondition skip = c, s.activeCondition skip = d at same ⊢
  cases same with
  | none => rfl
  | some equivalent =>
    cases subject with
    | bare type => rfl
    | item type fields => exact (equivalent fields).symm

end Rule.Repeats

theorem Rule.exists_repeats {first again : List Rule}
    (repeated : List.Forall₂ Repeats first again) : ∀ r ∈ first, ∃ s ∈ again, r.Repeats s := by
  induction repeated with
  | nil => exact fun r mem => absurd mem List.not_mem_nil
  | @cons r s rest others same _ ih =>
    refine List.forall_mem_cons.mpr ⟨⟨s, List.mem_cons_self, same⟩, fun t mem => ?_⟩
    obtain ⟨u, later, same⟩ := ih t mem
    exact ⟨u, List.mem_cons_of_mem s later, same⟩

/-! ### Covered blocks -/

namespace Ability

section Covered

variable {block newer : List Rule} (covered : ∀ r ∈ block, ∃ s ∈ newer, r.Repeats s)
  {skip : Bool} {action type : String}

include covered

theorem leaveOpen_of_covered (leaveOpen : Rule.LeaveOpen skip action type newer) :
    Rule.LeaveOpen skip action type block := by
  intro r mem applies unconditioned
  obtain ⟨s, later, again⟩ := covered r mem
  rw [← again.appliesTo_eq] at applies
  exact leaveOpen s later applies (again.activeCondition_eq_none unconditioned)

/-- Where no newer rule decides a check, none of the block does. -/
theorem decidingRule?_of_covered (older : List Rule) (subject : Subject) :
    decidingRule? ⟨older ++ block ++ newer, skip⟩ action subject =
      decidingRule? ⟨older ++ newer, skip⟩ action subject := by
  rw [decidingRule?_append, decidingRule?_append, decidingRule?_append]
  cases later : decidingRule? ⟨newer, skip⟩ action subject with
  | some s => rfl
  | none =>
    have undecided : decidingRule? ⟨block, skip⟩ action subject = none := by
      rw [decidingRule?_eq_none_iff] at later ⊢
      intro r mem applies
      obtain ⟨s, mem, again⟩ := covered r mem
      rw [← again.appliesTo_eq] at applies
      rw [← again.decides_eq]
      exact later s mem applies
    rw [undecided]
    rfl

theorem contested_of_covered (leaveOpen : Rule.LeaveOpen false action type newer) {answer : Bool}
    (contested : Rule.contested answer (rulesFor ⟨block, false⟩ action type)) :
    Rule.contested answer (rulesFor ⟨newer, false⟩ action type) := by
  have conditioned := conditioned_of_leaveOpen (leaveOpen_of_covered covered leaveOpen)
  rw [Rule.contested_iff answer conditioned] at contested
  rw [Rule.contested_iff answer (conditioned_of_leaveOpen leaveOpen)]
  obtain ⟨r, mem, otherwise⟩ := contested
  obtain ⟨mem, applies⟩ := mem_rulesFor.mp mem
  obtain ⟨s, later, again⟩ := covered r mem
  rw [← again.appliesTo_eq] at applies
  rw [← again.effect] at otherwise
  exact ⟨s, mem_rulesFor.mpr ⟨later, applies⟩, otherwise⟩

theorem excepts_of_covered (leaveOpen : Rule.LeaveOpen skip action type newer) {fields : Document}
    (excepts : Excepts ⟨block, skip⟩ action type fields) :
    Excepts ⟨newer, skip⟩ action type fields := by
  rw [excepts_iff (leaveOpen_of_covered covered leaveOpen)] at excepts
  rw [excepts_iff leaveOpen]
  obtain ⟨r, mem, applies, denies, decides⟩ := excepts
  obtain ⟨s, later, again⟩ := covered r mem
  rw [← again.appliesTo_eq] at applies
  rw [← again.effect] at denies
  rw [← again.decides_eq] at decides
  exact ⟨s, later, applies, denies, decides⟩

theorem agrees_of_covered (older : List Rule) (skip : Bool) (action type : String) :
    Agrees ⟨older ++ block ++ newer, skip⟩ ⟨older ++ newer, skip⟩ action type := by
  by_cases leaveOpen : Rule.LeaveOpen skip action type newer
  · have block_open := leaveOpen_of_covered covered leaveOpen
    refine agrees_of_scans rfl ?_ ?_ ?_ ?_
    · have nothing : rulesFor ⟨newer, skip⟩ action type = [] →
          rulesFor ⟨block, skip⟩ action type = [] := by
        simp only [rulesFor_eq_nil_iff]
        intro none r mem applies
        obtain ⟨s, later, again⟩ := covered r mem
        rw [← again.appliesTo_eq] at applies
        exact none s later applies
      simp only [rulesFor_append, List.append_eq_nil_iff]
      tauto
    · intro subject _
      rw [can, can, decidingRule?_of_covered covered]
    · rintro rfl answer
      have again : Rule.contested answer (rulesFor ⟨block, false⟩ action type) →
          Rule.contested answer (rulesFor ⟨newer, false⟩ action type) :=
        contested_of_covered covered leaveOpen
      rw [rulesFor_append, rulesFor_append, rulesFor_append,
        Rule.contested_append answer _ (conditioned_of_leaveOpen leaveOpen),
        Rule.contested_append answer _ (conditioned_of_leaveOpen leaveOpen),
        Rule.contested_append answer _ (conditioned_of_leaveOpen block_open), ← Bool.or_assoc,
        Bool.or_eq_left_iff_imp.mpr again]
    · intro fields
      have again : Excepts ⟨block, skip⟩ action type fields →
          Excepts ⟨newer, skip⟩ action type fields := excepts_of_covered covered leaveOpen
      rw [excepts_append, excepts_append, excepts_append]
      tauto
  · exact agrees_of_closed leaveOpen (older ++ block) older

end Covered

/-- A block of rules that are all registered again later makes no difference: every check is decided
by the same rule as without the block, so with the same answer and the same reason, and verdicts and
filters are the same, wherever conditions count or are skipped. -/
theorem repetition_unobservable {first again : List Rule}
    (repeated : List.Forall₂ Rule.Repeats first again) (older between newer : List Rule)
    (skip : Bool) :
    let all : Ability := ⟨older ++ first ++ between ++ again ++ newer, skip⟩
    let rest : Ability := ⟨older ++ between ++ again ++ newer, skip⟩
    ∀ action, (∀ subject, all.decidingRule? action subject = rest.decidingRule? action subject) ∧
      ∀ type, all.Agrees rest action type := by
  intro all rest action
  have covered : ∀ r ∈ first, ∃ s ∈ between ++ again ++ newer, r.Repeats s := by
    intro r mem
    obtain ⟨s, later, same⟩ := Rule.exists_repeats repeated r mem
    exact ⟨s, by simp [later], same⟩
  have split_all : all = ⟨older ++ first ++ (between ++ again ++ newer), skip⟩ := by
    simp only [all, List.append_assoc]
  have split_rest : rest = ⟨older ++ (between ++ again ++ newer), skip⟩ := by
    simp only [rest, List.append_assoc]
  rw [split_all, split_rest]
  exact ⟨decidingRule?_of_covered covered older, agrees_of_covered covered older skip action⟩

/-- An author is a reader, and again as an editor. -/
theorem repetition_unobservable_diamond :
    let sources : List Permissions :=
      [⟨[("author", fun _ => [.extend "reader", .cannot "delete" "Post", .extend "editor"]),
        ("editor", fun u => [.extend "reader",
          .canWhen "update" "Post" (.object [("owner", .text u.id)])]),
        ("reader", fun _ => [.can "read" "Post", .because "posts are public"])]⟩]
    let u : Actor := { Actor.ofId "u" with role := some "author" }
    let read : Rule := (Rule.allow "read" "Post").because "posts are public"
    let delete : Rule := .deny "delete" "Post"
    let update : Rule := (Rule.allow "update" "Post").under [("owner", .text "u")]
    List.Forall₂ Rule.Repeats [read] [read] ∧
      buildAbility u sources false = ⟨[read, delete, read, update], false⟩ ∧
      Agrees ⟨[read, delete, read, update], false⟩ ⟨[delete, read, update], false⟩
        "read" "Post" := by
  intro sources u read delete update
  have same : List.Forall₂ Rule.Repeats [read] [read] :=
    .cons (.of_condition_eq rfl rfl rfl rfl) .nil
  have unobservable := repetition_unobservable same [] [delete] [update] false "read"
  exact ⟨same, rfl, unobservable.2 "Post"⟩

end Ability

end AccessRules

import AccessRules.Proofs.Ability.Layers

/-! Rules of one effect in another order. Which of them decides a check depends on the order, but
not whether one does, and the answer is that of their effect; likewise for what contests an answer
and for exceptions. So only the rules that a block has, and not their order, can make a difference.
Main statement: a block of grants, or a block of denials, may be rearranged. -/

namespace AccessRules

/-- The rules have the effect. -/
def Rule.AllHave (effect : Effect) (rules : List Rule) : Prop := ∀ r ∈ rules, r.effect = effect

namespace Ability

variable {skip : Bool} {action type : String} {subject : Subject}

theorem mem_of_decidingRule? {a : Ability} {r : Rule}
    (found : a.decidingRule? action subject = some r) : r ∈ a.rules := by
  rw [decidingRule?_eq] at found
  exact (mem_rulesFor.mp (List.mem_of_find?_eq_some found)).1

section Block

variable {block : List Rule} {effect : Effect} (uniform : Rule.AllHave effect block)

include uniform

/-- A rule of the block that is found has the effect, so its answer is known beforehand. -/
theorem effect_of_decidingRule? {r : Rule}
    (found : decidingRule? ⟨block, skip⟩ action subject = some r) : r.effect = effect :=
  uniform r (mem_of_decidingRule? found)

/-- Rules of one effect do not contest the answer that they give. -/
theorem contested_of_uniform :
    Rule.contested (effect == .allow) (rulesFor ⟨block, false⟩ action type) = false := by
  rw [Rule.contested, List.any_eq_false]
  intro r mem
  have mem : r ∈ rulesFor ⟨block, false⟩ action type := (List.takeWhile_prefix _).subset mem
  rw [uniform r (mem_rulesFor.mp mem).1]
  simp

/-- The last rule without a condition settles the answer of a bare type, so if that rule is in the
block, the answer is the block's. -/
theorem can_bare_of_closed (older : List Rule) {newer : List Rule}
    (leaveOpen : Rule.LeaveOpen skip action type newer)
    (closed : ¬Rule.LeaveOpen skip action type block) :
    can ⟨older ++ block ++ newer, skip⟩ action (.bare type) = (effect == .allow) := by
  obtain ⟨s, mem, applies, unconditioned⟩ := Rule.not_leaveOpen_iff.mp closed
  have decided : decidingRule? ⟨block, skip⟩ action (.bare type) ≠ none :=
    decidingRule?_ne_none_of_unconditioned mem applies unconditioned
  obtain ⟨r, found⟩ := Option.ne_none_iff_exists'.mp decided
  rw [can_append, decidingRule?_bare_of_leaveOpen leaveOpen, can_append, found,
    ← effect_of_decidingRule? uniform found]
  rfl

end Block

/-- Grants are no exceptions. -/
theorem not_excepts_of_grants {block : List Rule} (grants : Rule.AllHave .allow block)
    (fields : Document) : ¬Excepts ⟨block, skip⟩ action type fields := by
  rintro ⟨-, older, r, newer, c, split, -, denies, -⟩
  have mem : r ∈ block := by
    rw [show block = older ++ r :: newer from split]
    exact List.mem_append_cons_self
  rw [grants r mem] at denies
  cases denies

/-! ### Blocks with the same rules -/

section Rearranged

variable {block block' : List Rule} {effect : Effect} (same : ∀ r, r ∈ block ↔ r ∈ block')

include same

theorem forall_congr_of_mem_iff (P : Rule → Prop) : (∀ r ∈ block, P r) ↔ ∀ r ∈ block', P r :=
  forall_congr' fun r => imp_congr_left (same r)

theorem leaveOpen_congr :
    Rule.LeaveOpen skip action type block ↔ Rule.LeaveOpen skip action type block' :=
  forall_congr_of_mem_iff same _

theorem rulesFor_eq_nil_congr :
    rulesFor ⟨block, skip⟩ action type = [] ↔ rulesFor ⟨block', skip⟩ action type = [] := by
  rw [rulesFor_eq_nil_iff, rulesFor_eq_nil_iff]
  exact forall_congr_of_mem_iff same _

theorem undecided_congr :
    decidingRule? ⟨block, skip⟩ action subject = none ↔
      decidingRule? ⟨block', skip⟩ action subject = none := by
  rw [decidingRule?_eq_none_iff, decidingRule?_eq_none_iff]
  exact forall_congr_of_mem_iff same _

theorem allHave_congr : Rule.AllHave effect block ↔ Rule.AllHave effect block' :=
  forall_congr_of_mem_iff same _

theorem can_rearranged (uniform : Rule.AllHave effect block) (older newer : List Rule) :
    can ⟨older ++ block ++ newer, skip⟩ action subject =
      can ⟨older ++ block' ++ newer, skip⟩ action subject := by
  refine can_append_congr newer ?_
  rw [can_append, can_append]
  cases found : decidingRule? ⟨block, skip⟩ action subject with
  | none => rw [(undecided_congr same).mp found]
  | some r =>
    have decided : decidingRule? ⟨block', skip⟩ action subject ≠ none := by
      rw [Ne, ← undecided_congr same, found]
      exact Option.some_ne_none r
    obtain ⟨s, found'⟩ := Option.ne_none_iff_exists'.mp decided
    rw [found', Option.map_some, Option.map_some, effect_of_decidingRule? uniform found,
      effect_of_decidingRule? ((allHave_congr same).mp uniform) found']

/-! ### Verdicts -/

theorem contested_congr (answer : Bool) (leaveOpen : Rule.LeaveOpen false action type block) :
    Rule.contested answer (rulesFor ⟨block, false⟩ action type) =
      Rule.contested answer (rulesFor ⟨block', false⟩ action type) := by
  have leaveOpen' := (leaveOpen_congr same).mp leaveOpen
  rw [Bool.eq_iff_iff, Rule.contested_iff answer (conditioned_of_leaveOpen leaveOpen),
    Rule.contested_iff answer (conditioned_of_leaveOpen leaveOpen')]
  simp only [mem_rulesFor, same]

/-- Where a rule of the block ends the reading, the answer is the one that its rules give, and none
of them contests that. -/
theorem contested_rearranged (uniform : Rule.AllHave effect block) {answer : Bool}
    (own : ¬Rule.LeaveOpen false action type block → answer = (effect == .allow))
    (older : List Rule) :
    Rule.contested answer (rulesFor ⟨older ++ block, false⟩ action type) =
      Rule.contested answer (rulesFor ⟨older ++ block', false⟩ action type) := by
  rw [rulesFor_append, rulesFor_append]
  by_cases leaveOpen : Rule.LeaveOpen false action type block
  · have leaveOpen' := (leaveOpen_congr same).mp leaveOpen
    rw [Rule.contested_append answer _ (conditioned_of_leaveOpen leaveOpen),
      Rule.contested_append answer _ (conditioned_of_leaveOpen leaveOpen'),
      contested_congr same answer leaveOpen]
  · obtain ⟨s, mem, applies, unconditioned⟩ := Rule.not_leaveOpen_iff.mp leaveOpen
    have found : s ∈ rulesFor ⟨block, false⟩ action type := mem_rulesFor.mpr ⟨mem, applies⟩
    have found' : s ∈ rulesFor ⟨block', false⟩ action type :=
      mem_rulesFor.mpr ⟨(same s).mp mem, applies⟩
    rw [Rule.contested_append_of_unconditioned answer _ found unconditioned,
      Rule.contested_append_of_unconditioned answer _ found' unconditioned, own leaveOpen,
      contested_of_uniform uniform, contested_of_uniform ((allHave_congr same).mp uniform)]

theorem verdict_rearranged (uniform : Rule.AllHave effect block) (older newer : List Rule) :
    verdict ⟨older ++ block ++ newer, skip⟩ action type =
      verdict ⟨older ++ block' ++ newer, skip⟩ action type := by
  by_cases leaveOpen : Rule.LeaveOpen skip action type newer
  · have bare : can ⟨older ++ block ++ newer, skip⟩ action (.bare type) =
        can ⟨older ++ block' ++ newer, skip⟩ action (.bare type) :=
      can_rearranged same uniform older newer
    have nothing : rulesFor ⟨older ++ block ++ newer, skip⟩ action type = [] ↔
        rulesFor ⟨older ++ block' ++ newer, skip⟩ action type = [] := by
      simp only [rulesFor_append, List.append_eq_nil_iff, rulesFor_eq_nil_congr same]
    rw [verdict_eq, verdict_eq, ← bare]
    simp only [nothing]
    cases skip with
    | true => rfl
    | false =>
      have own := can_bare_of_closed uniform older leaveOpen
      rw [rulesFor_append _ newer, rulesFor_append _ newer,
        Rule.contested_append _ _ (conditioned_of_leaveOpen leaveOpen),
        Rule.contested_append _ _ (conditioned_of_leaveOpen leaveOpen),
        contested_rearranged same uniform own older]
  · exact (agrees_of_closed leaveOpen (older ++ block) (older ++ block')).verdict

/-! ### Filters -/

theorem excepts_rearranged (grants : Rule.AllHave .allow block) (older newer : List Rule)
    (fields : Document) :
    Excepts ⟨older ++ block ++ newer, skip⟩ action type fields ↔
      Excepts ⟨older ++ block' ++ newer, skip⟩ action type fields := by
  have none : ¬Excepts ⟨block, skip⟩ action type fields := not_excepts_of_grants grants fields
  have none' : ¬Excepts ⟨block', skip⟩ action type fields :=
    not_excepts_of_grants ((allHave_congr same).mp grants) fields
  simp only [excepts_append, none, none', leaveOpen_congr same]

theorem agrees_rearranged (grants : Rule.AllHave .allow block) (older newer : List Rule) :
    Agrees ⟨older ++ block ++ newer, skip⟩ ⟨older ++ block' ++ newer, skip⟩ action type :=
  agrees_of_verdict (fun _ _ => can_rearranged same grants older newer)
    (verdict_rearranged same grants older newer) (excepts_rearranged same grants older newer)

end Rearranged

/-- The order of registration matters only between grants and denials. Rules of one effect that
stand together may be put in any other order: every check keeps its answer and every action on a
type its verdict, wherever conditions count or are skipped. If they are grants, the filters agree as
well. -/
theorem rearrangement_unobservable {block block' : List Rule} {effect : Effect}
    (perm : block.Perm block') (uniform : ∀ r ∈ block, r.effect = effect)
    (older newer : List Rule) (skip : Bool) :
    let before : Ability := ⟨older ++ block ++ newer, skip⟩
    let after : Ability := ⟨older ++ block' ++ newer, skip⟩
    ∀ action, (∀ subject, before.can action subject = after.can action subject) ∧
      ∀ type, before.verdict action type = after.verdict action type ∧
        (effect = .allow → before.Agrees after action type) := by
  intro before after action
  have same : ∀ r, r ∈ block ↔ r ∈ block' := fun r => perm.mem_iff
  refine ⟨fun subject => can_rearranged same uniform older newer, fun type => ⟨?_, ?_⟩⟩
  · exact verdict_rearranged same uniform older newer
  · rintro rfl
    exact agrees_rearranged same uniform older newer

/-- A grant on own posts and one on everything, below a denial and above another. -/
theorem rearrangement_unobservable_own :
    let own : Rule := (Rule.allow "read" "Post").under [("owner", .text "u")]
    let everything : Rule := .allow manage everyType
    let denial : Rule := .deny "read" "Post"
    let review : Rule := (Rule.deny "read" "Post").under [("status", .text "review")]
    [own, everything].Perm [everything, own] ∧ (∀ r ∈ [own, everything], r.effect = .allow) ∧
      Agrees ⟨[denial, own, everything, review], false⟩ ⟨[denial, everything, own, review], false⟩
        "read" "Post" := by
  intro own everything denial review
  have perm : [own, everything].Perm [everything, own] := .swap everything own []
  have uniform : ∀ r ∈ [own, everything], r.effect = .allow := by decide
  have unobservable := rearrangement_unobservable perm uniform [denial] [review] false "read"
  exact ⟨perm, uniform, (unobservable.2 "Post").2 rfl⟩

/-- Of two denials, the one without a condition hides an older one from the filter, though not from
checks. -/
example :
    let archived : Rule := (Rule.deny "read" "Post").under [("status", .text "archived")]
    let own : Rule := (Rule.allow "read" "Post").under [("owner", .text "u")]
    let post : Document := [("owner", .text "u"), ("status", .text "archived")]
    admits ⟨[archived, .deny "read" "Post", own], false⟩ "read" "Post" post = true ∧
      admits ⟨[.deny "read" "Post", archived, own], false⟩ "read" "Post" post = false := by
  decide +kernel

end Ability

end AccessRules

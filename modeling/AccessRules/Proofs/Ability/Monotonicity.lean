import AccessRules.Proofs.Ability.Layers
import AccessRules.Proofs.RuleStore.Lookup

/-! What one more rule may change. A check is settled by the newest rule that decides it, so a grant
between other rules only takes the place of older ones, and can but allow more; a denial can but
allow less. A filter reads on past the rule that decides, down to the first rule without a
condition, and what a new rule hides from it are exceptions as well as grants. So for filters a
denial is only sure to admit less where it is the newest rule. -/

namespace AccessRules.Ability

variable {skip : Bool} {action type : String} {subject : Subject} {r : Rule}

theorem can_concat_of_grant (rules : List Rule) (grants : r.effect = .allow)
    (allowed : can ⟨rules, skip⟩ action subject) : can ⟨rules ++ [r], skip⟩ action subject := by
  rw [can_concat]
  split
  case isTrue => simp [grants]
  case isFalse => exact allowed

theorem can_of_concat_denial (rules : List Rule) (denies : r.effect = .deny)
    (allowed : can ⟨rules ++ [r], skip⟩ action subject) : can ⟨rules, skip⟩ action subject := by
  rw [can_concat] at allowed
  split at allowed
  case isTrue => simp [denies] at allowed
  case isFalse => exact allowed

theorem can_insert_grant (older newer : List Rule) (grants : r.effect = .allow)
    (allowed : can ⟨older ++ newer, skip⟩ action subject) :
    can ⟨older ++ r :: newer, skip⟩ action subject := by
  rw [List.append_cons]
  exact can_append_mono newer (can_concat_of_grant older grants) allowed

theorem can_of_insert_denial (older newer : List Rule) (denies : r.effect = .deny)
    (allowed : can ⟨older ++ r :: newer, skip⟩ action subject) :
    can ⟨older ++ newer, skip⟩ action subject := by
  rw [List.append_cons] at allowed
  exact can_append_mono newer (can_of_concat_denial older denies) allowed

/-- A grant is no exception, and it hides some if it has no condition. -/
theorem excepts_of_insert_grant {fields : Document} (older newer : List Rule)
    (grants : r.effect = .allow)
    (excepts : Excepts ⟨older ++ r :: newer, skip⟩ action type fields) :
    Excepts ⟨older ++ newer, skip⟩ action type fields := by
  obtain rfl : skip = false := excepts.1
  rw [List.append_cons, excepts_append, excepts_concat] at excepts
  rw [excepts_append]
  rcases excepts with newer | ⟨leaveOpen, ⟨c, -, denies, -⟩ | ⟨-, older⟩⟩
  · exact .inl newer
  · rw [grants] at denies
    cases denies
  · exact .inr ⟨leaveOpen, older⟩

theorem admits_insert_grant {fields : Document} (older newer : List Rule)
    (grants : r.effect = .allow)
    (admitted : admits ⟨older ++ newer, skip⟩ action type fields) :
    admits ⟨older ++ r :: newer, skip⟩ action type fields := by
  rw [admits_iff] at admitted ⊢
  obtain ⟨allowed, clear⟩ := admitted
  exact ⟨can_insert_grant older newer grants allowed,
    mt (excepts_of_insert_grant older newer grants) clear⟩

theorem admits_of_concat_denial {fields : Document} (rules : List Rule)
    (denies : r.effect = .deny)
    (admitted : admits ⟨rules ++ [r], skip⟩ action type fields) :
    admits ⟨rules, skip⟩ action type fields := by
  rw [admits_iff] at admitted ⊢
  obtain ⟨allowed, clear⟩ := admitted
  refine ⟨can_of_concat_denial rules denies allowed, fun excepts => clear ?_⟩
  obtain rfl : skip = false := excepts.1
  have still_in_sight : r.appliesTo action type → r.condition ≠ none := by
    intro applies unconditioned
    have decided : r.decides (.item type fields) false :=
      Rule.decides_unconditioned _ (r.activeCondition_counting.trans unconditioned)
    have applies : r.appliesTo action (Subject.type (.item type fields)) := applies
    rw [can_concat, decided, applies, denies] at allowed
    cases allowed
  exact (excepts_concat rules r action type fields).mpr (.inr ⟨still_in_sight, excepts⟩)

/-- A grant that is put among other rules, at whatever place, takes nothing back that was allowed,
nor does the filter then reject what it admitted. A denial at whatever place allows nothing new, and
as the newest rule it lets the filter admit nothing new. -/
theorem insertion_monotone (older newer : List Rule) (r : Rule) (skip : Bool) (action : String) :
    (r.effect = .allow →
      (∀ subject, can ⟨older ++ newer, skip⟩ action subject →
        can ⟨older ++ r :: newer, skip⟩ action subject) ∧
      ∀ type fields, admits ⟨older ++ newer, skip⟩ action type fields →
        admits ⟨older ++ r :: newer, skip⟩ action type fields) ∧
    (r.effect = .deny →
      (∀ subject, can ⟨older ++ r :: newer, skip⟩ action subject →
        can ⟨older ++ newer, skip⟩ action subject) ∧
      ∀ type fields, admits ⟨older ++ newer ++ [r], skip⟩ action type fields →
        admits ⟨older ++ newer, skip⟩ action type fields) := by
  refine ⟨fun grants => ⟨fun subject => ?_, fun type fields => ?_⟩,
    fun denies => ⟨fun subject => ?_, fun type fields => ?_⟩⟩
  · exact can_insert_grant older newer grants
  · exact admits_insert_grant older newer grants
  · exact can_of_insert_denial older newer denies
  · exact admits_of_concat_denial (older ++ newer) denies

/-- A grant without a condition between two rules, and a denial on top of it. -/
theorem insertion_monotone_post :
    let archived : Rule := (Rule.deny "read" "Post").under [("status", .text "archived")]
    let own : Rule := (Rule.allow "read" "Post").under [("owner", .text "u")]
    let everything : Rule := .allow "read" "Post"
    let review : Rule := (Rule.deny "read" "Post").under [("status", .text "review")]
    let post : Document := [("owner", .text "u"), ("status", .text "draft")]
    (everything.effect = .allow ∧ can ⟨[archived, own], false⟩ "read" (.item "Post" post) ∧
      can ⟨[archived, everything, own], false⟩ "read" (.item "Post" post)) ∧
    (review.effect = .deny ∧
      admits ⟨[archived, everything, own, review], false⟩ "read" "Post" post ∧
      admits ⟨[archived, everything, own], false⟩ "read" "Post" post) := by
  intro archived own everything review post
  have allowed : can ⟨[archived, own], false⟩ "read" (.item "Post" post) := by decide +kernel
  have admitted : admits ⟨[archived, everything, own, review], false⟩ "read" "Post" post := by
    decide +kernel
  have grant := (insertion_monotone [archived] [own] everything false "read").1 rfl
  have denial := (insertion_monotone [archived] [everything, own] review false "read").2 rfl
  exact ⟨⟨rfl, allowed, grant.1 _ allowed⟩, rfl, admitted, denial.2 "Post" post admitted⟩

/-- Below a grant, a denial without a condition hides an older exception from the filter. -/
example :
    let archived : Rule := (Rule.deny "read" "Post").under [("status", .text "archived")]
    let own : Rule := (Rule.allow "read" "Post").under [("owner", .text "u")]
    let post : Document := [("owner", .text "u"), ("status", .text "archived")]
    admits ⟨[archived, own], false⟩ "read" "Post" post = false ∧
      admits ⟨[archived, .deny "read" "Post", own], false⟩ "read" "Post" post = true := by
  decide +kernel

end AccessRules.Ability

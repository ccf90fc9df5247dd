import AccessRules.Filter
import AccessRules.Proofs.Value.Sameness

/-! A field that is null and one that is missing make no difference. Two documents are alike when
each field has the same value in both or has none but null in either, in whatever order the fields
stand. No test, formula, filter or rule tells alike documents apart, so a check on either is settled
by the same rule. -/

namespace AccessRules

/-! ### Alike values -/

/-- What two documents have under a key, when no check may tell the documents apart. -/
inductive Value.Alike : Option Value → Option Value → Prop where
  | refl (actual : Option Value) : Alike actual actual
  | absent {v w : Option Value} (left : isPresent v = false) (right : isPresent w = false) :
      Alike v w
  | same {v w : Value} (left : v.same w) (right : w.same v) : Alike (some v) (some w)

namespace Value

theorem isPresent_eq_false_iff {actual : Option Value} :
    isPresent actual = false ↔ actual = none ∨ actual = some null := by
  rcases actual with - | v
  · simp [isPresent]
  · cases v <;> simp [isPresent, isNull]

theorem meets_of_absent {actual : Option Value} (h : isPresent actual = false) (expected : Value) :
    meets actual expected = expected.isNull := by
  rcases isPresent_eq_false_iff.mp h with rfl | rfl <;> rfl

theorem ordered_of_absent {actual : Option Value} (h : isPresent actual = false) (bound : Value)
    (accept : Ordering → Bool) : ordered actual bound accept = false := by
  rcases isPresent_eq_false_iff.mp h with rfl | rfl <;> rfl

/-- A list is met through its items, which are the same one by one, unless a list is expected. -/
theorem meets_some_congr {v w : Value} (h : v.same w) (h' : w.same v) (expected : Value) :
    meets (some v) expected = meets (some w) expected := by
  cases counterparts_of_same h with
  | refl => rfl
  | numbers => exact equal_congr h h' expected
  | lists items =>
    cases expected with
    | list zs => exact equal_congr h h' (list zs)
    | _ =>
      have items' := by simpa only [same, sameItems_iff] using h'
      exact any_equal_congr items items' _
  | objects => exact equal_congr h h' expected

namespace Alike

variable {v w : Option Value}

theorem meets_eq (h : Alike v w) (expected : Value) : meets v expected = meets w expected := by
  cases h with
  | refl => rfl
  | absent left right => rw [meets_of_absent left, meets_of_absent right]
  | same left right => exact meets_some_congr left right expected

theorem ordered_eq (h : Alike v w) (bound : Value) (accept : Ordering → Bool) :
    ordered v bound accept = ordered w bound accept := by
  cases h with
  | refl => rfl
  | absent left right => rw [ordered_of_absent left, ordered_of_absent right]
  | same left right => rw [ordered, ordered, compare?_congr left]

theorem isPresent_eq (h : Alike v w) : isPresent v = isPresent w := by
  cases h with
  | refl => rfl
  | absent left right => rw [left, right]
  | same left right => rw [isPresent, isPresent, isNull_congr left]

end Alike

end Value

/-! ### Alike documents -/

/-- Under every key the documents have the same value or none but null. -/
def Document.Alike (d e : Document) : Prop := ∀ key, Value.Alike (d.get? key) (e.get? key)

theorem Test.holds_congr {v w : Option Value} (h : Value.Alike v w) (test : Test) :
    test.holds v = test.holds w := by
  have meets : Value.meets v = Value.meets w := funext h.meets_eq
  cases test with
  | equals expected => exact h.meets_eq expected
  | differs expected => rw [holds, holds, meets]
  | oneOf items => rw [holds, holds, meets]
  | noneOf items => rw [holds, holds, meets]
  | present expected => rw [holds, holds, h.isPresent_eq]
  | above bound => exact h.ordered_eq bound _
  | atLeast bound => exact h.ordered_eq bound _
  | below bound => exact h.ordered_eq bound _
  | atMost bound => exact h.ordered_eq bound _
  | unsupported operator whole => rfl

section

variable {d e : Document} (alike : d.Alike e)

include alike

theorem Formula.holds_congr (f : Formula) : f.holds d = f.holds e := by
  induction f with
  | all parts ih =>
    rw [holds_all, holds_all, Bool.eq_iff_iff, List.all_eq_true, List.all_eq_true]
    exact forall₂_congr fun f mem => by rw [ih f mem]
  | any parts ih =>
    rw [holds_any, holds_any, Bool.eq_iff_iff, List.any_eq_true, List.any_eq_true]
    exact exists_congr fun f => and_congr_right fun mem => by rw [ih f mem]
  | not part ih => rw [holds_not, holds_not, ih]
  | field t =>
    rw [holds_field, holds_field]
    exact Test.holds_congr (alike t.field) t.test

theorem Rule.decides_congr (r : Rule) (type : String) (skip : Bool) :
    r.decides (.item type d) skip = r.decides (.item type e) skip := by
  cases active : r.activeCondition skip with
  | none => rw [decides, decides, active]
  | some condition =>
    rw [decides, decides, active]
    exact Formula.holds_congr alike condition.formula

theorem Ability.deciding?_congr (a : Ability) (action type : String) :
    a.deciding? action (.item type d) = a.deciding? action (.item type e) := by
  have decides : ∀ r : Rule, r.decides (.item type d) a.skipConditions =
      r.decides (.item type e) a.skipConditions :=
    fun r => Rule.decides_congr alike r type a.skipConditions
  rw [deciding?, deciding?, Subject.type, Subject.type]
  simp only [decides]

end

/-- No formula, query or ability tells alike documents apart: the same subjects are admitted, and a
check is settled by the same rule, found at the same place. -/
theorem Document.Alike.indistinguishable {d e : Document} (alike : d.Alike e) :
    (∀ f : Formula, f.holds d = f.holds e) ∧
      (∀ q : Query, q.admits d = q.admits e) ∧
      ∀ (a : Ability) (action type : String),
        a.can action (.item type d) = a.can action (.item type e) ∧
          a.deciding? action (.item type d) = a.deciding? action (.item type e) := by
  refine ⟨Formula.holds_congr alike, fun q => Formula.holds_congr alike q.formula,
    fun a action type => ⟨?_, Ability.deciding?_congr alike a action type⟩⟩
  rw [Ability.can, Ability.can, Ability.decidingRule?, Ability.decidingRule?,
    Ability.deciding?_congr alike]

/-- A rule on a field that must be null and on an owner written in another order. -/
theorem Document.Alike.indistinguishable_archived_null :
    let a : Ability := ⟨[(Rule.allow "read" "T").under [("archived", .null),
      ("owner", .object [("id", .text "u"), ("team", .text "t")])]], false⟩
    let d : Document := [("archived", .null), ("owner", .object [("id", .text "u"),
      ("team", .text "t")])]
    let e : Document := [("owner", .object [("team", .text "t"), ("id", .text "u")])]
    d.Alike e ∧ a.can "read" (.item "T" d) = a.can "read" (.item "T" e) ∧
      a.can "read" (.item "T" e) = true := by
  intro a d e
  have alike : d.Alike e := by
    intro key
    by_cases archived : key = "archived"
    · subst archived
      exact .absent rfl rfl
    · by_cases owner : key = "owner"
      · subst owner
        exact .same rfl rfl
      · have missing : d.get? key = e.get? key := by
          simp only [d, e, Document.get?, List.lookup_cons, beq_false_of_ne archived,
            beq_false_of_ne owner]
        rw [missing]
        exact .refl _
  exact ⟨alike, (indistinguishable alike).2.2 a "read" "T" |>.1, rfl⟩

end AccessRules

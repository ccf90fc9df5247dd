import AccessRules.Formula
import Mathlib.Logic.Basic

/-! Formulas judged by verdicts on their tests, where a verdict may depend on whether the test
stands under an odd number of negations. A verdict that is widened at even tests and narrowed at odd
ones widens the judgement of the whole formula. -/

namespace AccessRules

namespace Formula

mutual

/-- The tests of a formula from left to right, each with whether it stands under an odd number of
negations; `negated` counts those around the formula. -/
def tests (negated : Bool) : Formula → List (FieldTest × Bool)
  | all parts => testsOf negated parts
  | any parts => testsOf negated parts
  | not part => tests (!negated) part
  | field t => [(t, negated)]

def testsOf (negated : Bool) : List Formula → List (FieldTest × Bool)
  | [] => []
  | f :: rest => tests negated f ++ testsOf negated rest

end

theorem testsOf_eq_flatMap (negated : Bool) (parts : List Formula) :
    testsOf negated parts = parts.flatMap (tests negated) := by
  induction parts with
  | nil => rfl
  | cons f rest ih => rw [testsOf, ih, List.flatMap_cons]

@[simp] theorem tests_all (negated : Bool) (parts : List Formula) :
    (all parts).tests negated = parts.flatMap (tests negated) := by
  rw [tests, testsOf_eq_flatMap]

@[simp] theorem tests_any (negated : Bool) (parts : List Formula) :
    (any parts).tests negated = parts.flatMap (tests negated) := by
  rw [tests, testsOf_eq_flatMap]

@[simp] theorem tests_not (negated : Bool) (part : Formula) :
    (not part).tests negated = part.tests (!negated) := by
  rw [tests]

@[simp] theorem tests_field (negated : Bool) (t : FieldTest) :
    (field t).tests negated = [(t, negated)] := by
  rw [tests]

@[simp] theorem tests_conjunction (negated : Bool) (parts : List Formula) :
    (conjunction parts).tests negated = parts.flatMap (tests negated) := by
  unfold conjunction
  split
  · simp
  · rw [tests_all]

@[simp] theorem tests_disjunction (negated : Bool) (parts : List Formula) :
    (disjunction parts).tests negated = parts.flatMap (tests negated) := by
  unfold disjunction
  split
  · simp
  · rw [tests_any]

/-! ### Judgements -/

mutual

/-- The formula under verdicts on its tests. -/
def judge (verdict : Bool → FieldTest → Bool) (negated : Bool) : Formula → Bool
  | all parts => judgeAll verdict negated parts
  | any parts => judgeAny verdict negated parts
  | not part => !judge verdict (!negated) part
  | field t => verdict negated t

def judgeAll (verdict : Bool → FieldTest → Bool) (negated : Bool) : List Formula → Bool
  | [] => true
  | f :: rest => judge verdict negated f && judgeAll verdict negated rest

def judgeAny (verdict : Bool → FieldTest → Bool) (negated : Bool) : List Formula → Bool
  | [] => false
  | f :: rest => judge verdict negated f || judgeAny verdict negated rest

end

section Judge

variable (verdict : Bool → FieldTest → Bool) (negated : Bool)

@[simp] theorem judge_all (parts : List Formula) :
    (all parts).judge verdict negated = parts.all (judge verdict negated) := by
  rw [judge]
  induction parts with
  | nil => rfl
  | cons f rest ih => rw [judgeAll, ih, List.all_cons]

@[simp] theorem judge_any (parts : List Formula) :
    (any parts).judge verdict negated = parts.any (judge verdict negated) := by
  rw [judge]
  induction parts with
  | nil => rfl
  | cons f rest ih => rw [judgeAny, ih, List.any_cons]

@[simp] theorem judge_not (part : Formula) :
    (not part).judge verdict negated = !part.judge verdict (!negated) := by
  rw [judge]

@[simp] theorem judge_field (t : FieldTest) :
    (field t).judge verdict negated = verdict negated t := by
  rw [judge]

end Judge

/-- Judged by what holds, a formula is what it means. -/
theorem judge_holds (fields : Document) (negated : Bool) (f : Formula) :
    f.judge (fun _ t => t.holds fields) negated = f.holds fields := by
  induction f generalizing negated with
  | all parts ih =>
    rw [judge_all, holds_all, Bool.eq_iff_iff, List.all_eq_true, List.all_eq_true]
    exact forall₂_congr fun f hf => by rw [ih f hf]
  | any parts ih =>
    rw [judge_any, holds_any, Bool.eq_iff_iff, List.any_eq_true, List.any_eq_true]
    exact exists_congr fun f => and_congr_right fun hf => by rw [ih f hf]
  | not part ih => rw [judge_not, holds_not, ih]
  | field t => rw [judge_field, holds_field]

/-- Whether a verdict on something under an even number of negations, or else an odd one, gets wider
or stays. -/
def Widens (negated before after : Bool) : Prop :=
  if negated then after → before else before → after

theorem Widens.of_eq {negated before after : Bool} (h : before = after) :
    Widens negated before after := by
  cases negated <;> simp [Widens, h]

theorem Widens.antisymm {negated before after : Bool} (forth : Widens negated before after)
    (back : Widens negated after before) : before = after := by
  cases negated <;> cases before <;> cases after <;> simp [Widens] at forth back ⊢

theorem Widens.not {negated before after : Bool} (h : Widens (!negated) before after) :
    Widens negated (!before) (!after) := by
  cases negated <;> cases before <;> cases after <;> simp [Widens] at h ⊢

theorem widens_all {α : Type} {negated : Bool} {before after : α → Bool} {xs : List α}
    (h : ∀ x ∈ xs, Widens negated (before x) (after x)) :
    Widens negated (xs.all before) (xs.all after) := by
  cases negated with
  | false => simpa [Widens] using fun all x hx => h x hx (all x hx)
  | true => simpa [Widens] using fun all x hx => h x hx (all x hx)

theorem widens_any {α : Type} {negated : Bool} {before after : α → Bool} {xs : List α}
    (h : ∀ x ∈ xs, Widens negated (before x) (after x)) :
    Widens negated (xs.any before) (xs.any after) := by
  cases negated with
  | false => simpa [Widens] using fun x hx some => ⟨x, hx, h x hx some⟩
  | true => simpa [Widens] using fun x hx some => ⟨x, hx, h x hx some⟩

/-- Wider verdicts on the tests make a wider judgement of the formula. -/
theorem judge_widens {before after : Bool → FieldTest → Bool} {negated : Bool} {f : Formula}
    (h : ∀ p ∈ f.tests negated, Widens p.2 (before p.2 p.1) (after p.2 p.1)) :
    Widens negated (f.judge before negated) (f.judge after negated) := by
  induction f generalizing negated with
  | all parts ih =>
    rw [judge_all, judge_all]
    exact widens_all fun f hf => ih f hf fun p hp => h p (by simpa using ⟨f, hf, hp⟩)
  | any parts ih =>
    rw [judge_any, judge_any]
    exact widens_any fun f hf => ih f hf fun p hp => h p (by simpa using ⟨f, hf, hp⟩)
  | not part ih =>
    rw [judge_not, judge_not]
    exact (ih (by simpa using h)).not
  | field t =>
    rw [judge_field, judge_field]
    exact h (t, negated) (by simp)

theorem judge_congr {verdict other : Bool → FieldTest → Bool} {negated : Bool} {f : Formula}
    (h : ∀ p ∈ f.tests negated, verdict p.2 p.1 = other p.2 p.1) :
    f.judge verdict negated = f.judge other negated := by
  have forth : Widens negated (f.judge verdict negated) (f.judge other negated) :=
    judge_widens fun p hp => .of_eq (h p hp)
  have back : Widens negated (f.judge other negated) (f.judge verdict negated) :=
    judge_widens fun p hp => .of_eq (h p hp).symm
  exact forth.antisymm back

end Formula

end AccessRules

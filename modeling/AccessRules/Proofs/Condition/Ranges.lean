import AccessRules.Formula
import AccessRules.Proofs.Number.Rounding
import Mathlib.Data.String.Basic

/-! Range tests against order and equality. Texts have one order, by code point, and equality goes
with it. Two integers are equal as integers but ordered as the doubles nearest to them, so a range
test never contradicts the order of integers, but where two different ones have one double it takes
them for equal. Main statement: range tests follow the order and agree with equality everywhere
else, and so wherever one of the integers has at most fifty-three binary digits. -/

namespace AccessRules

/-- What the range tests with a bound say of a value that is less or greater, as given: exactly one
of below, equal and above holds, and the tests that admit the bound hold of what is equal as
well. -/
structure Value.RangesFollow (v bound : Value) (less greater : Prop) : Prop where
  one : [Test.below bound, .equals bound, .above bound].countP (·.holds (some v)) = 1
  below : (Test.below bound).holds (some v) ↔ less
  above : (Test.above bound).holds (some v) ↔ greater
  atMost : (Test.atMost bound).holds (some v) ↔
    (Test.below bound).holds (some v) ∨ (Test.equals bound).holds (some v)
  atLeast : (Test.atLeast bound).holds (some v) ↔
    (Test.above bound).holds (some v) ∨ (Test.equals bound).holds (some v)

/-- What the range tests never get wrong, even where they take different values for equal. -/
structure Value.NeverReversed (v bound : Value) (less greater : Prop) : Prop where
  below : (Test.below bound).holds (some v) → less
  above : (Test.above bound).holds (some v) → greater
  atMost : ¬greater → (Test.atMost bound).holds (some v)
  atLeast : ¬less → (Test.atLeast bound).holds (some v)

namespace Value

section Compared

variable {v bound : Value} {o : Ordering} {less greater : Prop}

/-- The four range tests ask for what the comparison finds. -/
theorem holds_ranges (compared : v.compare? bound = some o) :
    (Test.below bound).holds (some v) = (o == .lt) ∧
      (Test.above bound).holds (some v) = (o == .gt) ∧
      (Test.atMost bound).holds (some v) = (o != .gt) ∧
      (Test.atLeast bound).holds (some v) = (o != .lt) := by
  have found (accept : Ordering → Bool) : ordered (some v) bound accept = accept o := by
    rw [ordered, compared]
    rfl
  exact ⟨found _, found _, found _, found _⟩

/-- The range tests follow an order that the comparison takes, if equality is found where the
comparison finds it. -/
theorem rangesFollow_iff (compared : v.compare? bound = some o) :
    v.RangesFollow bound less greater ↔
      ((Test.equals bound).holds (some v) ↔ o = .eq) ∧ (o = .lt ↔ less) ∧ (o = .gt ↔ greater) := by
  obtain ⟨below, above, atMost, atLeast⟩ := holds_ranges compared
  constructor
  · intro follow
    have one := follow.one
    have less := follow.below
    have greater := follow.above
    rw [below, beq_iff_eq] at less
    rw [above, beq_iff_eq] at greater
    refine ⟨?_, less, greater⟩
    simp only [List.countP_cons, List.countP_nil, below, above] at one
    cases o <;> simpa using one
  · rintro ⟨equals, less, greater⟩
    refine ⟨?_, ?_, ?_, ?_, ?_⟩
    · simp only [List.countP_cons, List.countP_nil, below, above, equals]
      cases o <;> rfl
    · rwa [below, beq_iff_eq]
    · rwa [above, beq_iff_eq]
    · rw [atMost, below, equals]
      cases o <;> decide
    · rw [atLeast, above, equals]
      cases o <;> decide

theorem neverReversed_of_compare (compared : v.compare? bound = some o) (lt : o = .lt → less)
    (gt : o = .gt → greater) : v.NeverReversed bound less greater := by
  obtain ⟨below, above, atMost, atLeast⟩ := holds_ranges compared
  refine ⟨fun h => ?_, fun h => ?_, fun h => ?_, fun h => ?_⟩
  · rw [below, beq_iff_eq] at h
    exact lt h
  · rw [above, beq_iff_eq] at h
    exact gt h
  · rw [atMost, bne_iff_ne]
    exact mt gt h
  · rw [atLeast, bne_iff_ne]
    exact mt lt h

end Compared

/-! ### Texts and integers -/

/-- Two texts or two integers, and when the former is less or greater than the latter. -/
inductive Comparable : Value → Value → Prop → Prop → Prop where
  | texts (s t : String) : Comparable (text s) (text t) (s < t) (t < s)
  | integers (m n : WordInt) :
      Comparable (number (.int m)) (number (.int n)) (m.val < n.val) (n.val < m.val)

/-- Two different integers with one double. -/
inductive Conflated : Value → Value → Prop where
  | integers {m n : WordInt} (differ : m.val ≠ n.val) (one : m.toDouble.units = n.toDouble.units) :
      Conflated (number (.int m)) (number (.int n))

/-- No integer, or one of at most fifty-three binary digits. -/
def IsNarrow (v : Value) : Prop := ∀ n, v = number (.int n) → n.val.natAbs < 2 ^ 53

theorem compare?_texts {s t : String} :
    (text s).compare? (text t) = some (Ord.compare s t) := rfl

theorem compare?_integers {m n : WordInt} :
    (number (.int m)).compare? (number (.int n)) =
      some (Ord.compare m.toDouble.units n.toDouble.units) := rfl

theorem holds_equals_text {s t : String} :
    (Test.equals (text t)).holds (some (text s)) ↔ s = t := beq_iff_eq

theorem holds_equals_integer {m n : WordInt} :
    (Test.equals (number (.int n))).holds (some (number (.int m))) ↔ m.val = n.val := beq_iff_eq

theorem rangesFollow_texts (s t : String) : (text s).RangesFollow (text t) (s < t) (t < s) := by
  rw [rangesFollow_iff compare?_texts, holds_equals_text, compare_eq_iff_eq]
  exact ⟨Iff.rfl, compare_lt_iff_lt, compare_gt_iff_gt⟩

theorem conflated_iff {m n : WordInt} :
    Conflated (number (.int m)) (number (.int n)) ↔
      m.val ≠ n.val ∧ m.toDouble.units = n.toDouble.units :=
  ⟨fun | .integers differ one => ⟨differ, one⟩, fun ⟨differ, one⟩ => .integers differ one⟩

theorem lt_of_units_lt {m n : WordInt} (h : m.toDouble.units < n.toDouble.units) :
    m.val < n.val := by
  by_contra reversed
  exact absurd (WordInt.units_mono (not_lt.mp reversed)) (not_le.mpr h)

theorem rangesFollow_integers_iff {m n : WordInt} :
    (number (.int m)).RangesFollow (number (.int n)) (m.val < n.val) (n.val < m.val) ↔
      ¬Conflated (number (.int m)) (number (.int n)) := by
  rw [rangesFollow_iff compare?_integers, holds_equals_integer, compare_eq_iff_eq,
    compare_lt_iff_lt, compare_gt_iff_gt, conflated_iff]
  constructor
  · rintro ⟨equal, -⟩ ⟨differ, one⟩
    exact differ (equal.mpr one)
  · intro apart
    have differ (h : m.val ≠ n.val) : m.toDouble.units ≠ n.toDouble.units :=
      fun one => apart ⟨h, one⟩
    have same (h : m.val = n.val) : m.toDouble.units = n.toDouble.units :=
      le_antisymm (WordInt.units_mono h.le) (WordInt.units_mono h.ge)
    refine ⟨⟨same, fun one => by_contra fun h => differ h one⟩,
      ⟨lt_of_units_lt, fun less => ?_⟩, ⟨lt_of_units_lt, fun greater => ?_⟩⟩
    · exact lt_of_le_of_ne (WordInt.units_mono less.le) (differ less.ne)
    · exact lt_of_le_of_ne (WordInt.units_mono greater.le) (differ greater.ne').symm

theorem not_conflated_of_narrow {v bound : Value} (narrow : v.IsNarrow ∨ bound.IsNarrow) :
    ¬Conflated v bound := by
  rintro @⟨m, n, differ, one⟩
  have small : m.val.natAbs < 2 ^ 53 ∨ n.val.natAbs < 2 ^ 53 :=
    narrow.imp (fun h => h m rfl) (fun h => h n rfl)
  rcases Int.lt_or_gt_of_ne differ with less | greater
  · exact (WordInt.units_lt less small).ne one
  · exact (WordInt.units_lt greater small.symm).ne' one

variable {v bound : Value} {less greater : Prop}

/-- The range tests of two texts or two integers follow their order, unless these are different
integers with one double, so always where one of them has at most fifty-three binary digits; and
they never reverse it. -/
theorem ranges_follow (comparable : Comparable v bound less greater) :
    (v.RangesFollow bound less greater ↔ ¬Conflated v bound) ∧
      (v.IsNarrow ∨ bound.IsNarrow → v.RangesFollow bound less greater) ∧
      v.NeverReversed bound less greater := by
  have follow : v.RangesFollow bound less greater ↔ ¬Conflated v bound := by
    cases comparable with
    | texts s t => exact iff_of_true (rangesFollow_texts s t) nofun
    | integers m n => exact rangesFollow_integers_iff
  refine ⟨follow, fun narrow => follow.mpr (not_conflated_of_narrow narrow), ?_⟩
  cases comparable with
  | texts s t =>
    exact neverReversed_of_compare compare?_texts compare_lt_iff_lt.mp compare_gt_iff_gt.mp
  | integers m n =>
    exact neverReversed_of_compare compare?_integers
      (fun lt => lt_of_units_lt (compare_lt_iff_lt.mp lt))
      (fun gt => lt_of_units_lt (compare_gt_iff_gt.mp gt))

/-- The greatest integer of fifty-three binary digits and its successor. -/
theorem ranges_follow_wide :
    let m : WordInt := ⟨9007199254740991, by decide, by decide⟩
    let n : WordInt := ⟨9007199254740992, by decide, by decide⟩
    Comparable (number (.int m)) (number (.int n)) (m.val < n.val) (n.val < m.val) ∧
      (number (.int m)).IsNarrow ∧
      (number (.int m)).RangesFollow (number (.int n)) (m.val < n.val) (n.val < m.val) := by
  intro m n
  have narrow : (number (.int m)).IsNarrow := by
    rintro k ⟨⟩
    decide
  exact ⟨.integers m n, narrow, (ranges_follow (.integers m n)).2.1 (.inl narrow)⟩

/-- Two integers with one double: the greater one is not above the less one, and yet not equal to
it. -/
theorem range_misses_successor :
    let m : WordInt := ⟨9007199254740993, by decide, by decide⟩
    let n : WordInt := ⟨9007199254740992, by decide, by decide⟩
    let holds (test : Value → Test) : Bool :=
      (test (number (.int n))).holds (some (number (.int m)))
    n.val < m.val ∧ holds .above = false ∧ holds .equals = false ∧ holds .below = false ∧
      holds .atLeast = true ∧ holds .atMost = true := by
  decide +kernel

end Value

end AccessRules

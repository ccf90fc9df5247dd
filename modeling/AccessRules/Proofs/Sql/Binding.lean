import AccessRules.Formula
import AccessRules.Proofs.Number.Exactness
import AccessRules.Sql.Fragment
import Mathlib.Data.List.Forall2

/-! What a database gets of the parameters. Each of them is bound in its place, and all but some
integers keep their value. An integer beyond the signed words becomes the double nearest to it, so
it keeps its value when its last eleven binary digits are zero, and is mixed up with the other
integers that have this nearest double. No two other integers are bound as one number. -/

namespace AccessRules

namespace Sql

namespace Bound

/-- The value of a bound number. -/
def number? : Bound → Option ℚ
  | integer n => some n
  | real x => some x.value
  | _ => none

/-- The parameter comes through: null as null, a truth value as zero or one, a number with its exact
value, a text unchanged, a list and an object as their text. -/
def Carries (bound : Bound) : Value → Prop
  | .null => bound = null
  | .bool b => bound.number? = some (if b then 1 else 0)
  | .number n => bound.number? = some n.value
  | .text s => bound = text s
  | .list items => bound = text (Json.compact (.list items))
  | .object d => bound = text (Json.compact (.object d))

end Bound

/-- An integer of a signed word, or beyond these one whose last eleven binary digits are zero. -/
def IsBindable (n : WordInt) : Prop := n.val < 2 ^ 63 ∨ 2048 ∣ n.val

variable {m n : WordInt}

theorem number?_small (small : n.val < 2 ^ 63) :
    (Bound.ofNumber (.int n)).number? = some (n.val : ℚ) := by
  rw [Bound.ofNumber, if_pos (by omega), Bound.number?]

theorem number?_large (large : 2 ^ 63 ≤ n.val) :
    (Bound.ofNumber (.int n)).number? = some n.toDouble.value := by
  rw [Bound.ofNumber, if_neg (by omega), Bound.number?]

theorem number?_eq_some_iff :
    (Bound.ofNumber (.int n)).number? = some (n.val : ℚ) ↔ IsBindable n := by
  rcases lt_or_ge n.val (2 ^ 63) with small | large
  · exact iff_of_true (number?_small small) (.inl small)
  · rw [number?_large large, Option.some_inj, WordInt.value_toDouble_iff,
      WordInt.isExact_iff_dvd large, IsBindable, or_iff_right (not_lt.mpr large)]

theorem carries_ofValue_iff {v : Value} :
    (Bound.ofValue v).Carries v ↔ ∀ n, v = .number (.int n) → IsBindable n := by
  cases v with
  | number k =>
    cases k with
    | int n =>
      refine number?_eq_some_iff.trans ⟨?_, fun h => h n rfl⟩
      rintro bindable _ ⟨⟩
      exact bindable
    | real x => exact iff_of_true rfl (by rintro n ⟨⟩)
  | bool b =>
    refine iff_of_true ?_ (by rintro n ⟨⟩)
    cases b <;> simp [Bound.ofValue, Bound.Carries, Bound.number?]
  | _ => exact iff_of_true rfl (by rintro n ⟨⟩)

/-- The nearest double of an integer beyond the signed words is beyond them, too. -/
theorem le_value_toDouble (large : 2 ^ 63 ≤ n.val) : 2 ^ 63 ≤ n.toDouble.value := by
  let first : WordInt := ⟨2 ^ 63, by decide, by decide⟩
  have exact : first.toDouble.value = first.val :=
    WordInt.value_toDouble_iff.mpr ((WordInt.isExact_iff_dvd le_rfl).mpr (by decide))
  calc (2 ^ 63 : ℚ) = first.val := by norm_num [first]
    _ = first.toDouble.value := exact.symm
    _ ≤ n.toDouble.value := Double.value_le_iff.mpr (WordInt.units_mono large)

theorem number?_ne_of_large (small : m.val < 2 ^ 63) (large : 2 ^ 63 ≤ n.val) :
    (Bound.ofNumber (.int m)).number? ≠ (Bound.ofNumber (.int n)).number? := by
  rw [number?_small small, number?_large large]
  intro equal
  have below : (m.val : ℚ) < 2 ^ 63 := by exact_mod_cast small
  have above := le_value_toDouble large
  rw [← Option.some_inj.mp equal] at above
  exact absurd above (not_le.mpr below)

/-- Integers that come through stay apart. -/
theorem number?_inj (hm : IsBindable m) (hn : IsBindable n) :
    (Bound.ofNumber (.int m)).number? = (Bound.ofNumber (.int n)).number? ↔ m = n := by
  rw [number?_eq_some_iff.mpr hm, number?_eq_some_iff.mpr hn, Option.some_inj, Int.cast_inj,
    WordInt.val_inj]

/-- Two different integers are bound as one number when both are beyond the signed words and have
one nearest double. -/
theorem number?_eq_iff :
    (Bound.ofNumber (.int m)).number? = (Bound.ofNumber (.int n)).number? ↔
      m = n ∨ 2 ^ 63 ≤ m.val ∧ 2 ^ 63 ≤ n.val ∧ m.toDouble.value = n.toDouble.value := by
  constructor
  · intro equal
    rcases lt_or_ge m.val (2 ^ 63) with small | large
    · rcases lt_or_ge n.val (2 ^ 63) with small' | large'
      · exact .inl ((number?_inj (.inl small) (.inl small')).mp equal)
      · exact absurd equal (number?_ne_of_large small large')
    · rcases lt_or_ge n.val (2 ^ 63) with small' | large'
      · exact absurd equal.symm (number?_ne_of_large small' large)
      · rw [number?_large large, number?_large large'] at equal
        exact .inr ⟨large, large', Option.some_inj.mp equal⟩
  · rintro (rfl | ⟨large, large', equal⟩)
    · rfl
    · rw [number?_large large, number?_large large', equal]

/-- The value of the number that is bound in a place. -/
def numberAt? (params : List Value) (place : Nat) : Option ℚ :=
  (bind params)[place]?.bind Bound.number?

theorem numberAt?_int {params : List Value} {place : Nat}
    (h : params[place]? = some (.number (.int n))) :
    numberAt? params place = (Bound.ofNumber (.int n)).number? := by
  rw [numberAt?, bind, List.getElem?_map, h]
  rfl

/-- Every parameter is bound in its place, and comes through unless it is an integer that no double
and no signed word holds. Such integers are mixed up with those that have one nearest double with
them, and all others stay apart. -/
theorem bind_carries (params : List Value) :
    List.Forall₂ (fun v bound => bound.Carries v ↔ ∀ n, v = .number (.int n) → IsBindable n)
      params (bind params) ∧
    ∀ (i j : Nat) (m n : WordInt), params[i]? = some (.number (.int m)) →
      params[j]? = some (.number (.int n)) →
      (numberAt? params i = numberAt? params j ↔
        m = n ∨ 2 ^ 63 ≤ m.val ∧ 2 ^ 63 ≤ n.val ∧ m.toDouble.value = n.toDouble.value) ∧
      (IsBindable m → IsBindable n → (numberAt? params i = numberAt? params j ↔ m = n)) := by
  constructor
  · rw [bind, List.forall₂_map_right_iff, List.forall₂_same]
    exact fun v _ => carries_ofValue_iff
  · intro i j m n hi hj
    rw [numberAt?_int hi, numberAt?_int hj]
    exact ⟨number?_eq_iff, number?_inj⟩

theorem bind_carries_beyond :
    let m : WordInt := ⟨9223372036854775808, by decide, by decide⟩
    let n : WordInt := ⟨9223372036854777856, by decide, by decide⟩
    let params : List Value := [.text "x", .number (.int m), .number (.int n)]
    IsBindable m ∧ IsBindable n ∧ numberAt? params 1 ≠ numberAt? params 2 := by
  intro m n params
  have hm : IsBindable m := .inr (by decide)
  have hn : IsBindable n := .inr (by decide)
  have apart := ((bind_carries params).2 1 2 m n rfl rfl).2 hm hn
  exact ⟨hm, hn, apart.not.mpr (by decide)⟩

/-- Two integers that a test tells apart are bound as one double. -/
theorem bind_mixes_up_neighbours :
    let m : WordInt := ⟨9223372036854775809, by decide, by decide⟩
    let n : WordInt := ⟨9223372036854775810, by decide, by decide⟩
    m.val ≠ n.val ∧ (Test.equals (.number (.int m))).holds (some (.number (.int n))) = false ∧
      bind [.number (.int m)] = bind [.number (.int n)] := by
  intro m n
  have double : m.toDouble = n.toDouble := by decide +kernel
  exact ⟨by decide, by decide, congrArg (fun x => [Bound.real x]) double⟩

end Sql

end AccessRules

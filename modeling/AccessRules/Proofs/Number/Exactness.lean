import AccessRules.Proofs.Number.Rounding
import Mathlib.Algebra.Order.Field.Rat
import Mathlib.Tactic.FieldSimp
import Mathlib.Tactic.Positivity

/-! The exact values of numbers, as rationals. The double of an integer is one that is nearest to
it: doubles on the grid of the rounding are no nearer, and those below the grid are farther than its
least point. So an integer keeps its value where any double has it. -/

namespace AccessRules

/-! ### Values -/

/-- The exact value. -/
def Double.value (x : Double) : ℚ := x.units / 2 ^ Double.unitExponent

/-- The exact value. -/
def Number.value : Number → ℚ
  | int n => n.val
  | real x => x.value

namespace Double

variable {x y : Double}

theorem value_eq_iff : x.value = y.value ↔ x.units = y.units := by
  have positive : (0 : ℚ) < 2 ^ unitExponent := by positivity
  rw [value, value, div_left_inj' positive.ne', Int.cast_inj]

theorem value_le_iff : x.value ≤ y.value ↔ x.units ≤ y.units := by
  have positive : (0 : ℚ) < 2 ^ unitExponent := by positivity
  rw [value, value, div_le_div_iff_of_pos_right positive, Int.cast_le]

theorem value_eq_intCast_iff {n : Int} : x.value = n ↔ x.units = n * 2 ^ unitExponent := by
  have positive : (0 : ℚ) < 2 ^ unitExponent := by positivity
  rw [value, div_eq_iff positive.ne']
  exact_mod_cast Iff.rfl

/-- The distance of a value from an integer, in units. -/
theorem abs_sub_value (n : Int) (x : Double) :
    |(n : ℚ) - x.value| = (n * 2 ^ unitExponent - x.units).natAbs / 2 ^ unitExponent := by
  have positive : (0 : ℚ) < 2 ^ unitExponent := by positivity
  rw [value, sub_div' positive.ne', abs_div, abs_of_pos positive, Nat.cast_natAbs]
  push_cast
  rfl

theorem units_eq_natCast_iff {n : Nat} (pos : 0 < n) :
    x.units = n ↔ x.negative = false ∧ x.significand * 2 ^ x.scale = n := by
  unfold units
  rw [Nat.pow_eq]
  cases x.negative with
  | true =>
    rw [if_pos rfl]
    exact ⟨by omega, nofun⟩
  | false =>
    rw [if_neg Bool.false_ne_true, Int.natCast_inj]
    exact ⟨fun h => ⟨rfl, h⟩, And.right⟩

/-! ### Distances -/

theorem nearest_cases (n d : Nat) :
    nearest n d = n / d ∧ 2 * (n % d) ≤ d ∨ nearest n d = n / d + 1 ∧ d ≤ 2 * (n % d) := by
  unfold nearest
  split_ifs
  · omega
  · omega
  · have := Nat.mod_two_eq_zero_or_one (n / d)
    omega

/-- No multiple is nearer than the nearest. -/
theorem nearest_closest {d : Nat} (pos : 0 < d) (n k : Nat) :
    ((n : Int) - (nearest n d * d : Nat)).natAbs ≤ ((n : Int) - (k * d : Nat)).natAbs := by
  have split := Nat.div_add_mod' n d
  have remainder := Nat.mod_lt n pos
  have succ : (n / d + 1) * d = n / d * d + d := Nat.succ_mul _ _
  have side : k * d ≤ n / d * d ∨ (n / d + 1) * d ≤ k * d := by
    rcases Nat.lt_or_ge (n / d) k with above | below
    · exact .inr (Nat.mul_le_mul_right d above)
    · exact .inl (Nat.mul_le_mul_right d below)
  rcases nearest_cases n d with ⟨down, half⟩ | ⟨up, half⟩
  · rw [down]
    omega
  · rw [up]
    omega

/-- Where rounding is on a coarse grid, the fraction is not below the least normal point of it. -/
theorem normal_le {n d : Nat} (coarse : 0 < scaleOf n d) :
    2 ^ 52 * (d * 2 ^ scaleOf n d) ≤ n := by
  have digits : (n / d).log2 = 52 + scaleOf n d := by
    unfold scaleOf at coarse ⊢
    omega
  have some_unit : n / d ≠ 0 := by
    intro none
    have : Nat.log2 0 = 0 := by decide
    rw [none] at digits
    omega
  have normal : 2 ^ 52 * 2 ^ scaleOf n d ≤ n / d := by
    rw [← Nat.pow_add, ← digits]
    exact Nat.log2_self_le some_unit
  calc 2 ^ 52 * (d * 2 ^ scaleOf n d) = 2 ^ 52 * 2 ^ scaleOf n d * d := by
        rw [Nat.mul_comm d, Nat.mul_assoc]
    _ ≤ n / d * d := Nat.mul_le_mul_right d normal
    _ ≤ n := Nat.div_mul_le_self n d

/-- No double is nearer to a fraction than the one that it is rounded to. -/
theorem magnitude_closest {d : Nat} (pos : 0 < d) (n : Nat) (y : Double) :
    ((n : Int) - (magnitude n d * d : Nat)).natAbs ≤
      ((n : Int) - (y.significand * 2 ^ y.scale * d : Nat)).natAbs := by
  have grid : magnitude n d * d = nearest n (d * 2 ^ scaleOf n d) * (d * 2 ^ scaleOf n d) := by
    rw [magnitude, Nat.mul_assoc, Nat.mul_comm (2 ^ _) d]
  have step : 0 < d * 2 ^ scaleOf n d := Nat.mul_pos pos (Nat.two_pow_pos _)
  rw [grid]
  rcases Nat.lt_or_ge y.scale (scaleOf n d) with fine | coarse
  · have low : y.significand * 2 ^ y.scale * d ≤ 2 ^ 52 * (d * 2 ^ scaleOf n d) := by
      obtain ⟨s, hs⟩ := Nat.exists_eq_add_of_lt fine
      have bound : y.significand * 2 ^ y.scale ≤ 2 ^ 52 * 2 ^ scaleOf n d :=
        calc y.significand * 2 ^ y.scale ≤ 2 ^ 53 * 2 ^ (y.scale + s) :=
              Nat.mul_le_mul y.significand_lt.le (Nat.pow_le_pow_right (by decide) (by omega))
          _ = 2 ^ 52 * 2 ^ scaleOf n d := by
              rw [hs, Nat.pow_succ 2 (y.scale + s)]
              omega
      calc y.significand * 2 ^ y.scale * d ≤ 2 ^ 52 * 2 ^ scaleOf n d * d :=
            Nat.mul_le_mul_right d bound
        _ = 2 ^ 52 * (d * 2 ^ scaleOf n d) := by rw [Nat.mul_comm d, Nat.mul_assoc]
    have normal := normal_le (Nat.zero_lt_of_lt fine)
    have closest := nearest_closest step n (2 ^ 52)
    omega
  · obtain ⟨s, hs⟩ := Nat.exists_eq_add_of_le coarse
    have multiple : y.significand * 2 ^ y.scale * d =
        y.significand * 2 ^ s * (d * 2 ^ scaleOf n d) := by
      rw [hs, Nat.add_comm, Nat.pow_add]
      simp only [Nat.mul_assoc, Nat.mul_comm d]
    rw [multiple]
    exact nearest_closest step n _

theorem natCast_unit : ((Nat.pow 2 unitExponent : Nat) : Int) = 2 ^ unitExponent := by
  rw [Nat.pow_eq, Int.natCast_pow, Nat.cast_ofNat]

theorem units_ofInt_closest (n : Int) (h : n.natAbs ≤ Nat.pow 2 64) (y : Double) :
    (n * 2 ^ unitExponent - (ofInt n h).units).natAbs ≤
      (n * 2 ^ unitExponent - y.units).natAbs := by
  have closest (y : Double) := magnitude_closest Nat.one_pos (n.natAbs * Nat.pow 2 unitExponent) y
  have to_y := closest y
  have to_zero := closest (zero false)
  have sign : n * 2 ^ unitExponent =
      if n < 0 then -((n.natAbs * Nat.pow 2 unitExponent : Nat) : Int)
      else ((n.natAbs * Nat.pow 2 unitExponent : Nat) : Int) := by
    rw [Int.natCast_mul, ← Int.neg_mul, natCast_unit]
    split_ifs
    · rw [show -(n.natAbs : Int) = n by omega]
    · rw [show (n.natAbs : Int) = n by omega]
  rw [units_ofInt, sign, units]
  simp only [Nat.mul_one, zero, Nat.zero_mul, Nat.pow_eq] at to_y to_zero ⊢
  split_ifs <;> omega

end Double

namespace WordInt

theorem val_inj {m n : WordInt} : m.val = n.val ↔ m = n := by
  cases m
  cases n
  rw [mk.injEq]

/-- Some double is the integer. -/
def IsExact (n : WordInt) : Prop := ∃ x : Double, x.value = n.val

/-- No double is nearer to an integer than its own. -/
theorem toDouble_closest (n : WordInt) (y : Double) :
    |(n.val : ℚ) - n.toDouble.value| ≤ |(n.val : ℚ) - y.value| := by
  rw [Double.abs_sub_value, Double.abs_sub_value]
  have closest := Double.units_ofInt_closest n.val n.natAbs_le y
  rw [toDouble]
  gcongr

theorem value_toDouble_iff {n : WordInt} : n.toDouble.value = n.val ↔ n.IsExact := by
  refine ⟨fun exact => ⟨n.toDouble, exact⟩, ?_⟩
  rintro ⟨x, exact⟩
  have closest := n.toDouble_closest x
  rw [exact, sub_self, abs_zero, abs_nonpos_iff, sub_eq_zero] at closest
  exact closest.symm

/-- An integer beyond the signed words is a double when its last eleven binary digits are zero. -/
theorem isExact_iff_dvd {n : WordInt} (large : 2 ^ 63 ≤ n.val) : n.IsExact ↔ 2048 ∣ n.val := by
  obtain ⟨k, natural⟩ := Int.eq_ofNat_of_zero_le (show 0 ≤ n.val by omega)
  have upper := n.upper
  have positive : 0 < 2 ^ Double.unitExponent := Nat.two_pow_pos _
  have value (x : Double) : x.value = n.val ↔
      x.negative = false ∧ x.significand * 2 ^ x.scale = k * 2 ^ Double.unitExponent := by
    rw [Double.value_eq_intCast_iff, natural, ← Double.natCast_unit, ← Int.natCast_mul, Nat.pow_eq,
      Double.units_eq_natCast_iff (Nat.mul_pos (by omega) positive)]
  have grid : 2 ^ (Double.unitExponent + 11) = 2048 * 2 ^ Double.unitExponent := by
    rw [Nat.pow_add, Nat.mul_comm]
  constructor
  · rintro ⟨x, exact⟩
    obtain ⟨-, product⟩ := (value x).mp exact
    rcases Nat.lt_or_ge x.scale (Double.unitExponent + 11) with fine | coarse
    · have bound : x.significand * 2 ^ x.scale < 2 ^ 63 * 2 ^ Double.unitExponent :=
        calc x.significand * 2 ^ x.scale
            < 2 ^ 53 * 2 ^ x.scale :=
              Nat.mul_lt_mul_of_pos_right x.significand_lt (Nat.two_pow_pos _)
          _ ≤ 2 ^ 53 * 2 ^ (Double.unitExponent + 10) :=
              Nat.mul_le_mul_left _ (Nat.pow_le_pow_right (by decide) (by omega))
          _ = 2 ^ 63 * 2 ^ Double.unitExponent := by
              rw [← Nat.pow_add, ← Nat.pow_add, Nat.add_left_comm, Nat.add_comm]
      rw [product] at bound
      have := Nat.lt_of_mul_lt_mul_right bound
      omega
    · obtain ⟨s, hs⟩ := Nat.exists_eq_add_of_le coarse
      rw [hs, Nat.pow_add, grid, Nat.mul_comm 2048, Nat.mul_assoc, Nat.mul_left_comm,
        Nat.mul_comm k] at product
      have multiple := Nat.eq_of_mul_eq_mul_left positive product
      rw [Nat.mul_left_comm] at multiple
      rw [natural]
      exact_mod_cast Dvd.intro _ multiple
  · rintro ⟨q, multiple⟩
    obtain ⟨j, rfl⟩ := Int.eq_ofNat_of_zero_le (show 0 ≤ q by omega)
    have normal : Nat.pow 2 52 ≤ j := by
      show 4503599627370496 ≤ j
      omega
    have small : j < Nat.pow 2 53 := by
      show j < 9007199254740992
      omega
    refine ⟨⟨false, j, Double.unitExponent + 11, small, by decide, .inr normal⟩, ?_⟩
    rw [value]
    refine ⟨rfl, ?_⟩
    simp only
    rw [grid, ← Nat.mul_assoc, show j * 2048 = k by omega]

end WordInt

end AccessRules

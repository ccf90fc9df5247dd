import AccessRules.Number
import Mathlib.Algebra.Group.Nat.Defs
import Mathlib.Data.Nat.Log

/-! How integers round to doubles. Rounding at one scale keeps the order of fractions, and a larger
scale starts where the smaller one ends, so a larger integer never gets a smaller double. Integers
of at most fifty-three binary digits are kept, and the one after them. Main statement: where one of
two integers has no more digits than that, rounding keeps the two apart, in their order. -/

namespace AccessRules

namespace Double

/-! ### Nearest integers -/

theorem nearest_le_succ (n d : Nat) : nearest n d ≤ n / d + 1 := by
  unfold nearest
  split
  · exact Nat.le_succ _
  · split <;> omega

theorem nearest_of_dvd {n d : Nat} (pos : 0 < d) (dvd : d ∣ n) : nearest n d = n / d := by
  rw [nearest, Nat.mod_eq_zero_of_dvd dvd, if_pos pos]

theorem nearest_mono {m n : Nat} (d : Nat) (h : m ≤ n) : nearest m d ≤ nearest n d := by
  have quotients : m / d ≤ n / d := Nat.div_le_div_right h
  rcases Nat.lt_or_eq_of_le quotients with lt | same
  · calc nearest m d ≤ m / d + 1 := nearest_le_succ m d
      _ ≤ n / d := lt
      _ ≤ nearest n d := div_le_nearest n d
  · have remainders : m % d ≤ n % d := by
      have split_m := Nat.div_add_mod m d
      have split_n := Nat.div_add_mod n d
      rw [same] at split_m
      omega
    unfold nearest
    rw [same]
    split_ifs <;> omega

/-! ### Magnitudes -/

/-- The number of units, without the sign, of the double nearest to `n / d` units. -/
def magnitude (n d : Nat) : Nat :=
  nearest n (d * 2 ^ scaleOf n d) * 2 ^ scaleOf n d

theorem scaleOf_mono {m n : Nat} (d : Nat) (h : m ≤ n) : scaleOf m d ≤ scaleOf n d := by
  have digits : (m / d).log2 ≤ (n / d).log2 := by
    rw [Nat.log2_eq_log_two, Nat.log2_eq_log_two]
    exact Nat.log_mono_right (Nat.div_le_div_right h)
  unfold scaleOf
  omega

theorem nearest_le (n d : Nat) : nearest n (d * 2 ^ scaleOf n d) ≤ 2 ^ 53 := by
  refine (nearest_le_succ _ _).trans ?_
  have fits : n / d < 2 ^ 53 * 2 ^ scaleOf n d := by
    rw [← Nat.pow_add]
    refine Nat.lt_of_lt_of_le Nat.lt_log2_self (Nat.pow_le_pow_right (by decide) ?_)
    unfold scaleOf
    omega
  rw [← Nat.div_div_eq_div_mul]
  exact Nat.div_lt_of_lt_mul (by rwa [Nat.mul_comm])

theorem magnitude_mono {m n : Nat} (d : Nat) (h : m ≤ n) : magnitude m d ≤ magnitude n d := by
  rcases Nat.lt_or_eq_of_le (scaleOf_mono d h) with lt | same
  · have normal : 2 ^ 52 ≤ nearest n (d * 2 ^ scaleOf n d) :=
      (nearest_normal n d).resolve_left (Nat.ne_zero_of_lt lt)
    calc magnitude m d ≤ 2 ^ 53 * 2 ^ scaleOf m d := Nat.mul_le_mul_right _ (nearest_le m d)
      _ = 2 ^ 52 * 2 ^ (scaleOf m d + 1) := by rw [Nat.pow_succ 2 (scaleOf m d)]; omega
      _ ≤ 2 ^ 52 * 2 ^ scaleOf n d := Nat.mul_le_mul_left _ (Nat.pow_le_pow_right (by decide) lt)
      _ ≤ magnitude n d := Nat.mul_le_mul_right _ normal
  · unfold magnitude
    rw [same]
    exact Nat.mul_le_mul_right _ (nearest_mono _ h)

theorem magnitude_of_dvd {n : Nat} (dvd : 2 ^ scaleOf n 1 ∣ n) : magnitude n 1 = n := by
  rw [magnitude, Nat.one_mul, nearest_of_dvd (Nat.two_pow_pos _) dvd, Nat.div_mul_cancel dvd]

/-- An integer of at most fifty-three binary digits is kept, and so is the least one of more. -/
theorem magnitude_mul {k : Nat} (small : k ≤ 2 ^ 53) (e : Nat) :
    magnitude (k * Nat.pow 2 e) 1 = k * Nat.pow 2 e := by
  rw [Nat.pow_eq]
  refine magnitude_of_dvd ?_
  rcases Nat.lt_or_eq_of_le small with lt | rfl
  · refine Nat.dvd_mul_left_of_dvd (Nat.pow_dvd_pow 2 ?_) k
    by_cases zero : k = 0
    · simp [zero, scaleOf]
    · have digits : (k * 2 ^ e).log2 < 53 + e := by
        rw [Nat.log2_lt (Nat.mul_ne_zero zero (Nat.two_pow_pos e).ne'), Nat.pow_add]
        exact Nat.mul_lt_mul_of_pos_right lt (Nat.two_pow_pos e)
      rw [scaleOf, Nat.div_one]
      omega
  · rw [← Nat.pow_add, scaleOf, Nat.div_one, Nat.log2_two_pow]
    exact Nat.pow_dvd_pow 2 (by omega)

/-- The double that is found has that magnitude. -/
theorem units_of_ofUnits? {negative : Bool} {n d : Nat} {x : Double}
    (h : ofUnits? negative n d = some x) :
    x.units = if negative then -(magnitude n d : Int) else (magnitude n d : Int) := by
  unfold ofUnits? at h
  split at h
  case isTrue =>
    split at h
    case isTrue =>
      obtain rfl := Option.some.inj h
      rfl
    case isFalse => contradiction
  case isFalse large =>
    split at h
    case isTrue =>
      obtain rfl := Option.some.inj h
      have full : nearest n (d * 2 ^ scaleOf n d) = 2 ^ 53 :=
        Nat.le_antisymm (nearest_le n d) (Nat.le_of_not_lt large)
      have same : magnitude n d = 2 ^ 52 * 2 ^ (scaleOf n d + 1) := by
        rw [magnitude, full, Nat.pow_succ 2 (scaleOf n d)]
        omega
      rw [same]
      rfl
    case isFalse => contradiction

/-! ### Integers -/

theorem units_ofInt (n : Int) (h : n.natAbs ≤ Nat.pow 2 64) :
    (ofInt n h).units =
      if n < 0 then -(magnitude (n.natAbs * Nat.pow 2 unitExponent) 1 : Int)
      else (magnitude (n.natAbs * Nat.pow 2 unitExponent) 1 : Int) := by
  have found : round? (n < 0) n.natAbs 1 = some (ofInt n h) := (Option.some_get _).symm
  rw [units_of_ofUnits? found]
  simp only [decide_eq_true_eq]

theorem units_ofInt_mono {m n : Int} (hm : m.natAbs ≤ Nat.pow 2 64) (hn : n.natAbs ≤ Nat.pow 2 64)
    (h : m ≤ n) : (ofInt m hm).units ≤ (ofInt n hn).units := by
  have magnitudes {i j : Nat} (h : i ≤ j) :
      magnitude (i * Nat.pow 2 unitExponent) 1 ≤ magnitude (j * Nat.pow 2 unitExponent) 1 :=
    magnitude_mono 1 (Nat.mul_le_mul_right _ h)
  rw [units_ofInt, units_ofInt]
  by_cases negative : n < 0
  · have := magnitudes (show n.natAbs ≤ m.natAbs by omega)
    rw [if_pos (by omega), if_pos negative]
    omega
  · rw [if_neg negative]
    split_ifs
    · omega
    · exact Int.ofNat_le.mpr (magnitudes (by omega))

theorem units_ofInt_of_small {n : Int} (h : n.natAbs ≤ Nat.pow 2 64) (small : n.natAbs ≤ 2 ^ 53) :
    (ofInt n h).units = n * (Nat.pow 2 unitExponent : Nat) := by
  rw [units_ofInt, magnitude_mul small unitExponent, Int.natCast_mul, ← Int.neg_mul]
  split_ifs
  · rw [show -(n.natAbs : Int) = n by omega]
  · rw [show (n.natAbs : Int) = n by omega]

theorem units_ofInt_lt_succ {m n : Int} (hm : m.natAbs ≤ Nat.pow 2 64)
    (hn : n.natAbs ≤ Nat.pow 2 64) (small_m : m.natAbs ≤ 2 ^ 53) (small_n : n.natAbs ≤ 2 ^ 53)
    (next : n = m + 1) : (ofInt m hm).units < (ofInt n hn).units := by
  have positive (e : Nat) : (0 : Int) < (Nat.pow 2 e : Nat) :=
    Int.natCast_pos.mpr (Nat.pow_pos (by decide))
  rw [units_ofInt_of_small hm small_m, units_ofInt_of_small hn small_n, next]
  exact Int.mul_lt_mul_of_pos_right (Int.lt_succ m) (positive unitExponent)

end Double

namespace WordInt

variable {m n : WordInt}

theorem units_mono (h : m.val ≤ n.val) : m.toDouble.units ≤ n.toDouble.units :=
  Double.units_ofInt_mono m.natAbs_le n.natAbs_le h

/-- An integer of at most fifty-three binary digits is kept and so are its two neighbours, beyond
which all other integers stay. -/
theorem units_lt (h : m.val < n.val) (small : m.val.natAbs < 2 ^ 53 ∨ n.val.natAbs < 2 ^ 53) :
    m.toDouble.units < n.toDouble.units := by
  have fits {k : Int} (small : k.natAbs ≤ 2 ^ 53) : k.natAbs ≤ Nat.pow 2 64 :=
    small.trans (by decide)
  rcases small with small | small
  · have next : (m.val + 1).natAbs ≤ 2 ^ 53 := by omega
    calc m.toDouble.units
      _ < (Double.ofInt (m.val + 1) (fits next)).units :=
        Double.units_ofInt_lt_succ m.natAbs_le _ small.le next rfl
      _ ≤ n.toDouble.units := Double.units_ofInt_mono _ n.natAbs_le (by omega)
  · have previous : (n.val - 1).natAbs ≤ 2 ^ 53 := by omega
    calc m.toDouble.units
      _ ≤ (Double.ofInt (n.val - 1) (fits previous)).units :=
        Double.units_ofInt_mono m.natAbs_le _ (by omega)
      _ < n.toDouble.units :=
        Double.units_ofInt_lt_succ _ n.natAbs_le previous small.le (by omega)

end WordInt

end AccessRules

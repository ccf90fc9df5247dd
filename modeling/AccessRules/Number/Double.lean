/-! Finite binary64 numbers. A double is a sign, a significand below `2 ^ 53` and a scale, and its
value is a whole number of units of `2 ^ -1074`, the least positive double. Comparison reads the
units, so it is exact and the two zeros are equal. `round?` takes a fraction to the nearest double,
ties to the even significand. -/

namespace AccessRules

/-- A finite binary64 number, in its one canonical form. -/
structure Double where
  /-- Set for the numbers below zero and for the negative zero. -/
  negative : Bool
  /-- The digits, without the sign. -/
  significand : Nat
  /-- The power of two, counted from the least one, that multiplies the significand. -/
  scale : Nat
  significand_lt : significand < Nat.pow 2 53
  scale_le : scale ≤ 2045
  normal : scale = 0 ∨ Nat.pow 2 52 ≤ significand
  deriving DecidableEq

namespace Double

/-- The value as a number of units of `2 ^ -1074`. -/
def units (x : Double) : Int :=
  if x.negative then -((x.significand * Nat.pow 2 x.scale : Nat) : Int)
  else ((x.significand * Nat.pow 2 x.scale : Nat) : Int)

/-- Doubles are equal when their values are, so the two zeros are. -/
def equal (x y : Double) : Bool := x.units == y.units

/-- The order of two values. -/
def compare (x y : Double) : Ordering := Ord.compare x.units y.units

/-- The sixty-four bits of the interchange format: sign, exponent and fraction. -/
def bits (x : Double) : Nat :=
  (if x.negative then Nat.pow 2 63 else 0) + x.scale * Nat.pow 2 52 + x.significand

/-- The zero of a sign. -/
def zero (negative : Bool) : Double :=
  ⟨negative, 0, 0, by decide, by decide, .inl rfl⟩

/-! ### Rounding -/

/-- The natural number nearest to `n / d`, a tie going to the even one. -/
def nearest (n d : Nat) : Nat :=
  if 2 * (n % d) < d then n / d
  else if d < 2 * (n % d) then n / d + 1
  else n / d + n / d % 2

theorem div_le_nearest (n d : Nat) : n / d ≤ nearest n d := by
  unfold nearest
  split
  · exact Nat.le_refl _
  · split <;> omega

/-- The scale at which `n / d` units have fifty-three binary digits, or the least scale. -/
def scaleOf (n d : Nat) : Nat := (n / d).log2 - 52

theorem nearest_normal (n d : Nat) :
    scaleOf n d = 0 ∨ Nat.pow 2 52 ≤ nearest n (d * Nat.pow 2 (scaleOf n d)) := by
  by_cases h : scaleOf n d = 0
  · exact .inl h
  · refine .inr (Nat.le_trans ?_ (div_le_nearest _ _))
    have hs : scaleOf n d + 52 = (n / d).log2 := by unfold scaleOf at h ⊢; omega
    have hq : n / d ≠ 0 := by
      intro h0
      rw [h0] at hs
      have : Nat.log2 0 = 0 := by decide
      omega
    rw [Nat.pow_eq, Nat.pow_eq, ← Nat.div_div_eq_div_mul,
      Nat.le_div_iff_mul_le (Nat.two_pow_pos _), ← Nat.pow_add, Nat.add_comm, hs]
    exact Nat.log2_self_le hq

/-- The double nearest to `n / d` units, a tie going to the even significand; nothing when that
double would not be finite. -/
def ofUnits? (negative : Bool) (n d : Nat) : Option Double :=
  if small : nearest n (d * Nat.pow 2 (scaleOf n d)) < Nat.pow 2 53 then
    if fits : scaleOf n d ≤ 2045 then
      some ⟨negative, nearest n (d * Nat.pow 2 (scaleOf n d)), scaleOf n d, small, fits,
        nearest_normal n d⟩
    else none
  else if fits : scaleOf n d + 1 ≤ 2045 then
    some ⟨negative, Nat.pow 2 52, scaleOf n d + 1, by decide, fits, .inr (Nat.le_refl _)⟩
  else none

theorem ofUnits?_isSome (negative : Bool) {n d : Nat} (h : scaleOf n d < 2045) :
    (ofUnits? negative n d).isSome := by
  have h1 : scaleOf n d ≤ 2045 := by omega
  have h2 : scaleOf n d + 1 ≤ 2045 := by omega
  unfold ofUnits?
  by_cases small : nearest n (d * Nat.pow 2 (scaleOf n d)) < Nat.pow 2 53
  · rw [dif_pos small, dif_pos h1]; rfl
  · rw [dif_neg small, dif_pos h2]; rfl

/-- One is this power of two of units. -/
def unitExponent : Nat := 1074

/-- The double nearest to `n / d`. -/
def round? (negative : Bool) (n d : Nat) : Option Double :=
  ofUnits? negative (n * Nat.pow 2 unitExponent) d

theorem scaleOf_le {n k : Nat} (h : n ≤ Nat.pow 2 64) :
    scaleOf (n * Nat.pow 2 k) 1 ≤ k + 13 := by
  unfold scaleOf
  rw [Nat.div_one, Nat.pow_eq]
  by_cases h0 : n * 2 ^ k = 0
  · rw [h0]
    exact Nat.le_trans (by decide) (Nat.zero_le _)
  · have hlt : n * 2 ^ k < 2 ^ (65 + k) := by
      rw [Nat.pow_add]
      exact Nat.mul_lt_mul_of_pos_right (Nat.lt_of_le_of_lt h (by decide)) (Nat.two_pow_pos k)
    have := (Nat.log2_lt h0).2 hlt
    omega

/-- The double nearest to a whole number of at most sixty-four binary digits. -/
def ofInt (n : Int) (h : n.natAbs ≤ Nat.pow 2 64) : Double :=
  (round? (n < 0) n.natAbs 1).get
    (ofUnits?_isSome _ (Nat.lt_of_le_of_lt (scaleOf_le h) (by decide)))

end Double

end AccessRules

import AccessRules.Number.Double

/-! Decimal numerals of doubles. A numeral is read as the nearest double, in exact arithmetic. A
double is written as the shortest numeral: of the numerals that read back as the double, one with
the fewest digits, and of those the nearest. The coarsest decimal grid that has a point in the
double's rounding interval holds it next to the value. -/

namespace AccessRules

/-- A decimal numeral without its sign: `digits * 10 ^ exponent`. -/
structure Decimal where
  digits : Nat
  exponent : Int
  deriving DecidableEq

namespace Double

/-! ### Reading -/

/-- The count of decimal digits of a natural number. -/
def digitCount (n : Nat) : Nat := (Nat.toDigits 10 n).length

/-- The double nearest to `digits * 10 ^ exponent`; nothing when it would not be finite. A numeral
far outside the range of doubles is settled by its magnitude alone. -/
def ofDecimal? (negative : Bool) (digits : Nat) (exponent : Int) : Option Double :=
  if digits = 0 then some (zero negative)
  else if 310 < digitCount digits + exponent then none
  else if digitCount digits + exponent < -330 then some (zero negative)
  else if 0 ≤ exponent then round? negative (digits * Nat.pow 10 exponent.toNat) 1
  else round? negative digits (Nat.pow 10 (-exponent).toNat)

/-! ### Writing -/

/-- The reals that round to a double, in quarter units of `2 ^ -1076`; the ends belong to it when
the significand is even. -/
structure Interval where
  low : Nat
  value : Nat
  high : Nat
  closed : Bool

/-- Below a power of two the next double is only half as far away. -/
def interval (x : Double) : Interval :=
  let below := if x.significand = Nat.pow 2 52 ∧ 0 < x.scale then 1 else 2
  { low := (4 * x.significand - below) * Nat.pow 2 x.scale
    value := 4 * x.significand * Nat.pow 2 x.scale
    high := (4 * x.significand + 2) * Nat.pow 2 x.scale
    closed := x.significand % 2 == 0 }

/-- Whether the fraction `n / d` of quarter units lies in the interval. -/
def Interval.contains (i : Interval) (n d : Nat) : Bool :=
  if i.closed then i.low * d ≤ n ∧ n ≤ i.high * d else i.low * d < n ∧ n < i.high * d

/-- The point of the grid `10 ^ exponent` in the interval that is nearest to the value, an even
multiple if two are equally near. -/
def Interval.onGrid? (i : Interval) (exponent : Int) : Option Decimal :=
  let step := Nat.pow 2 1076 * Nat.pow 10 exponent.toNat
  let d := Nat.pow 10 (-exponent).toNat
  let below := i.value * d / step
  let above := below + 1
  let belowIn := 0 < below && i.contains (below * step) d
  let aboveIn := i.contains (above * step) d
  let downward := i.value * d - below * step
  let upward := above * step - i.value * d
  let takesBelow := belowIn &&
    (!aboveIn || downward < upward || (downward == upward && below % 2 == 0))
  if takesBelow then some ⟨below, exponent⟩
  else if aboveIn then some ⟨above, exponent⟩
  else none

/-- The first hit of `count` grids, each ten times finer than the one before. -/
def Interval.search (i : Interval) : Nat → Int → Decimal
  | 0, _ => ⟨0, 0⟩
  | count + 1, exponent => (i.onGrid? exponent).getD (i.search count (exponent - 1))

/-- The shortest numeral of the magnitude; every nonzero double has one between `10 ^ 309` and
`10 ^ -343`. -/
def shortest (x : Double) : Decimal :=
  if x.significand = 0 then ⟨0, 0⟩ else x.interval.search 653 309

end Double

end AccessRules

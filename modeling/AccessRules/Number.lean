import AccessRules.Number.Double

/-! Numbers as data formats write them: a numeral without point and exponent that fits a 64-bit word
is kept as an integer, every other one is a double. The two kinds stay apart when values are
compared as written, and meet as doubles when they are compared by value. -/

namespace AccessRules

/-- An integer that fits a signed or an unsigned 64-bit word. -/
structure WordInt where
  val : Int
  /-- The least is minus two to the 63rd power. -/
  lower : -9223372036854775808 ≤ val
  /-- All are below two to the 64th power. -/
  upper : val < 18446744073709551616
  deriving DecidableEq

namespace WordInt

/-- The integer, where a 64-bit word holds it. -/
def ofInt? (n : Int) : Option WordInt :=
  if h : -9223372036854775808 ≤ n ∧ n < 18446744073709551616 then some ⟨n, h.1, h.2⟩ else none

theorem natAbs_le (n : WordInt) : n.val.natAbs ≤ Nat.pow 2 64 := by
  show n.val.natAbs ≤ 18446744073709551616
  have := n.lower
  have := n.upper
  omega

/-- The nearest double. -/
def toDouble (n : WordInt) : Double := Double.ofInt n.val n.natAbs_le

end WordInt

/-- A number: an integer of a 64-bit word, or a double. -/
inductive Number where
  | int (n : WordInt)
  | real (x : Double)
  deriving DecidableEq

namespace Number

/-- The number as a double. -/
def toDouble : Number → Double
  | int n => n.toDouble
  | real x => x

/-- Equality of kind and value: an integer is never the same as a double. -/
def same : Number → Number → Bool
  | int m, int n => m.val == n.val
  | real x, real y => x.equal y
  | _, _ => false

/-- Equality by value: integers exactly, and a mixed pair as doubles. -/
def equal : Number → Number → Bool
  | int m, int n => m.val == n.val
  | x, y => x.toDouble.equal y.toDouble

/-- The order of two numbers, taken as doubles. -/
def compare (x y : Number) : Ordering := x.toDouble.compare y.toDouble

end Number

end AccessRules

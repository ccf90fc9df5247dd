import AccessRules.Json.Numeral
import AccessRules.Toml.Data

/-! The scalars of TOML that are no texts: truth values, numbers, dates and times. Each is a row of
letters, digits and signs, and all of the row has to be in its form. -/

namespace AccessRules

namespace Toml

namespace Scalar

/-- Digits of which any two may have an underscore between them. -/
def isGrouped (isDigit : Char → Bool) : List Char → Bool
  | [] => false
  | [c] => isDigit c
  | c :: '_' :: rest => isDigit c && isGrouped isDigit rest
  | c :: rest => isDigit c && isGrouped isDigit rest

/-- A row of decimal digits that starts with zero only when it is `0`. -/
def isWhole : List Char → Bool
  | ['0'] => true
  | '0' :: _ => false
  | chars => isGrouped Char.isDigit chars

/-- Whether a number starts with a minus sign, and the row without its sign. -/
def splitSign : List Char → Bool × List Char
  | '-' :: rest => (true, rest)
  | '+' :: rest => (false, rest)
  | chars => (false, chars)

/-- The digits without the underscores between them. -/
def ungrouped (chars : List Char) : List Char := chars.filter (· != '_')

/-- The value of a row of digits to a base, with either case of letters. -/
def valueIn (base : Nat) (chars : List Char) : Nat :=
  (ungrouped chars).foldl
    (fun n c => base * n + (if c.isDigit then c.toNat - '0'.toNat
      else c.toLower.toNat - 'a'.toNat + 10)) 0

/-! ### Numbers -/

/-- The letters of the digits above nine. -/
def isHexDigit (c : Char) : Bool :=
  c.isDigit || ('a' ≤ c && c ≤ 'f') || ('A' ≤ c && c ≤ 'F')

/-- An unsigned integer to a base, which fits a signed 64-bit word. -/
def isBased (base : Nat) (isDigit : Char → Bool) (chars : List Char) : Bool :=
  isGrouped isDigit chars && valueIn base chars < Nat.pow 2 63

/-- An integer, decimal or to another base, which fits a signed 64-bit word. -/
def isInteger : List Char → Bool
  | '0' :: 'x' :: rest => isBased 16 isHexDigit rest
  | '0' :: 'o' :: rest => isBased 8 (fun c => '0' ≤ c && c ≤ '7') rest
  | '0' :: 'b' :: rest => isBased 2 (fun c => c == '0' || c == '1') rest
  | chars =>
    let (negative, digits) := splitSign chars
    isWhole digits && valueIn 10 digits < Nat.pow 2 63 + (if negative then 1 else 0)

/-- The exponent after its letter. -/
def exponent? (chars : List Char) : Option Int :=
  let (negative, digits) := splitSign chars
  if isGrouped Char.isDigit digits then
    some (if negative then -(valueIn 10 digits : Int) else valueIn 10 digits)
  else none

/-- The digits of the fraction and the exponent, of which one has to be there. -/
def fractionAndExponent? : List Char → Option (List Char × Int)
  | '.' :: rest =>
    let isEnd := fun c => c == 'e' || c == 'E'
    let fraction := rest.takeWhile (!isEnd ·)
    if !isGrouped Char.isDigit fraction then none
    else match rest.dropWhile (!isEnd ·) with
      | [] => some (ungrouped fraction, 0)
      | _ :: chars => (exponent? chars).map (ungrouped fraction, ·)
  | 'e' :: chars => (exponent? chars).map ([], ·)
  | 'E' :: chars => (exponent? chars).map ([], ·)
  | _ => none

/-- A float. A positive one has to be within the range of doubles; a negative one beyond it counts
as the negative infinity. -/
def isFloat (chars : List Char) : Bool :=
  let (negative, unsigned) := splitSign chars
  let whole := unsigned.takeWhile fun c => c.isDigit || c == '_'
  if unsigned = ['i', 'n', 'f'] ∨ unsigned = ['n', 'a', 'n'] then true
  else
    match fractionAndExponent? (unsigned.dropWhile fun c => c.isDigit || c == '_') with
    | none => false
    | some (fraction, exponent) =>
      isWhole whole &&
        (negative || (Double.ofDecimal? false (digitsValue (ungrouped whole ++ fraction))
          (exponent - fraction.length)).isSome)

/-! ### Dates and times -/

/-- The value of two digits. -/
def pair? (a b : Char) : Option Nat :=
  if a.isDigit && b.isDigit then some (digitsValue [a, b]) else none

/-- Two digits whose value is in a range. -/
def isPair (a b : Char) (least most : Nat) : Bool :=
  (pair? a b).any fun n => least ≤ n && n ≤ most

/-- The days of a month of the Gregorian calendar. -/
def daysIn (year month : Nat) : Nat :=
  if month = 2 then (if year % 4 = 0 ∧ (year % 100 ≠ 0 ∨ year % 400 = 0) then 29 else 28)
  else if month ∈ [4, 6, 9, 11] then 30
  else 31

/-- A date, and what follows it in the row. -/
def afterDate? : List Char → Option (List Char)
  | y1 :: y2 :: y3 :: y4 :: '-' :: m1 :: m2 :: '-' :: d1 :: d2 :: rest => do
    let year := 100 * (← pair? y1 y2) + (← pair? y3 y4)
    let month ← pair? m1 m2
    let day ← pair? d1 d2
    if 1 ≤ month ∧ month ≤ 12 ∧ 1 ≤ day ∧ day ≤ daysIn year month then some rest else none
  | _ => none

/-- A fraction of a second, or none. -/
def isSecondFraction : List Char → Bool
  | [] => true
  | '.' :: digits => !digits.isEmpty && digits.all Char.isDigit
  | _ => false

/-- A time of the day; the second may be a leap second. -/
def isClock : List Char → Bool
  | h1 :: h2 :: ':' :: m1 :: m2 :: ':' :: s1 :: s2 :: rest =>
    isPair h1 h2 0 23 && isPair m1 m2 0 59 && isPair s1 s2 0 60 && isSecondFraction rest
  | _ => false

/-- A distance from the universal time, or none. -/
def isOffset : List Char → Bool
  | [] => true
  | ['Z'] => true
  | ['z'] => true
  | [sign, h1, h2, ':', m1, m2] =>
    (sign == '+' || sign == '-') && isPair h1 h2 0 23 && isPair m1 m2 0 59
  | _ => false

/-- A time of the day after a date, with or without an offset. -/
def isClockWithOffset (chars : List Char) : Bool :=
  let inClock := fun c => c.isDigit || c == ':' || c == '.'
  isClock (chars.takeWhile inClock) && isOffset (chars.dropWhile inClock)

/-- Whether a row is a date without a time. -/
def isDate (chars : List Char) : Bool := afterDate? chars = some []

/-- A date, a time, or a date with a time after the letter T. -/
def isTime (chars : List Char) : Bool :=
  isClock chars ||
    match afterDate? chars with
    | some [] => true
    | some ('T' :: rest) => isClockWithOffset rest
    | some ('t' :: rest) => isClockWithOffset rest
    | _ => false

/-- The item of a row. -/
def item? : List Char → Option Item
  | ['t', 'r', 'u', 'e'] => some (.bool true)
  | ['f', 'a', 'l', 's', 'e'] => some (.bool false)
  | chars =>
    if isTime chars then some .time
    else if isFloat chars then some .float
    else if isInteger chars then some .integer
    else none

end Scalar

end Toml

end AccessRules

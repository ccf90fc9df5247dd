import AccessRules.Number
import AccessRules.Number.Decimal

/-! Numerals of the JSON grammar: an optional minus sign, digits without a leading zero, and an
optional fraction and exponent. A numeral that is all digits and fits a 64-bit word is an integer;
every other one, the minus zero among them, is the nearest double. -/

namespace AccessRules

/-- The number that a row of decimal digits denotes. -/
def digitsValue (digits : List Char) : Nat :=
  digits.foldl (fun n c => 10 * n + (c.toNat - '0'.toNat)) 0

namespace Number

/-- A row of digits that is not empty and starts with zero only when it is `0`. -/
def isInteger : List Char → Bool
  | [] => false
  | ['0'] => true
  | c :: rest => c != '0' && c.isDigit && rest.all Char.isDigit

/-- The sign and the rest of a numeral. -/
def splitSign : List Char → Bool × List Char
  | '-' :: rest => (true, rest)
  | chars => (false, chars)

/-- An exponent after its letter: an optional sign and at least one digit. -/
def exponent? : List Char → Option Int
  | '+' :: rest => magnitude? rest
  | '-' :: rest => (magnitude? rest).map (-·)
  | rest => magnitude? rest
where
  magnitude? (digits : List Char) : Option Int :=
    if digits.isEmpty then none
    else if digits.all Char.isDigit then some (digitsValue digits)
    else none

/-- What follows the integer part: the digits of the fraction and the exponent. -/
def fractionAndExponent? : List Char → Option (List Char × Int)
  | [] => some ([], 0)
  | '.' :: rest =>
    let fraction := rest.takeWhile Char.isDigit
    if fraction.isEmpty then none
    else (exponentPart? (rest.dropWhile Char.isDigit)).map (fraction, ·)
  | rest => (exponentPart? rest).map ([], ·)
where
  exponentPart? : List Char → Option Int
    | [] => some 0
    | 'e' :: rest => exponent? rest
    | 'E' :: rest => exponent? rest
    | _ => none

/-- The integer of a sign and a row of digits, unless it is the minus zero or does not fit a
64-bit word. -/
def wordInt? (negative : Bool) (digits : List Char) : Option WordInt :=
  let n := digitsValue digits
  if negative then (if n = 0 then none else WordInt.ofInt? (-(n : Int))) else WordInt.ofInt? n

/-- The number of a numeral; nothing when the text is no numeral or its value is too large for a
double. -/
def ofNumeral? (chars : List Char) : Option Number := do
  let (negative, unsigned) := splitSign chars
  let whole := unsigned.takeWhile Char.isDigit
  let rest := unsigned.dropWhile Char.isDigit
  guard (isInteger whole)
  let (fraction, exponent) ← fractionAndExponent? rest
  match rest, wordInt? negative whole with
  | [], some n => return int n
  | _, _ =>
    let x ← Double.ofDecimal? negative (digitsValue (whole ++ fraction))
      (exponent - fraction.length)
    return real x

end Number

end AccessRules

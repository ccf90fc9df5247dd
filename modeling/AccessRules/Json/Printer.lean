import AccessRules.Value
import AccessRules.Number.Decimal

/-! Values as JSON texts: compact, or indented by two blanks a level. Doubles are written with the
fewest digits that read back. -/

namespace AccessRules

namespace Double

/-- An exponent after its letter, always with its sign. -/
def exponentText (n : Int) : List Char :=
  'e' :: (if n < 0 then '-' else '+') :: Nat.toDigits 10 n.natAbs

/-- The digits with the decimal point after the first `point` of them. A number from `1e-5` on and
below `1e+16` is written without an exponent and always with a point; any other one has one digit
before the point, and no point when that digit is the only one. -/
def positional (digits : List Char) (point : Int) : List Char :=
  if 0 < point ∧ point ≤ 16 then
    if digits.length ≤ point.toNat then
      digits ++ List.replicate (point.toNat - digits.length) '0' ++ ['.', '0']
    else digits.take point.toNat ++ '.' :: digits.drop point.toNat
  else if -5 < point ∧ point ≤ 0 then
    '0' :: '.' :: List.replicate (-point).toNat '0' ++ digits
  else
    match digits with
    | [d] => d :: exponentText (point - 1)
    | d :: rest => d :: '.' :: rest ++ exponentText (point - 1)
    | [] => exponentText (point - 1)

/-- The text of a double. -/
def text (x : Double) : String :=
  let shortest := x.shortest
  let digits := Nat.toDigits 10 shortest.digits
  let magnitude :=
    if shortest.digits = 0 then ['0', '.', '0']
    else positional digits (digits.length + shortest.exponent)
  String.ofList (if x.negative then '-' :: magnitude else magnitude)

end Double

/-- The text of a number. -/
def Number.text : Number → String
  | int n => Int.repr n.val
  | real x => x.text

namespace Json

/-- The characters that stand for a character inside quotes: the quote, the backslash and the
control characters below the blank are escaped. -/
def escape (c : Char) : List Char :=
  match c with
  | '"' => ['\\', '"']
  | '\\' => ['\\', '\\']
  | '\x08' => ['\\', 'b']
  | '\x0c' => ['\\', 'f']
  | '\n' => ['\\', 'n']
  | '\r' => ['\\', 'r']
  | '\t' => ['\\', 't']
  | c =>
    if c.toNat < 0x20 then
      ['\\', 'u', '0', '0', Nat.digitChar (c.toNat / 16), Nat.digitChar (c.toNat % 16)]
    else [c]

/-- A text in quotes. -/
def quote (s : String) : String := String.ofList ('"' :: s.toList.flatMap escape ++ ['"'])

mutual

/-- The text of a value, without blanks. -/
def compact : Value → String
  | .null => "null"
  | .bool b => if b then "true" else "false"
  | .number n => n.text
  | .text s => quote s
  | .list items => "[" ++ ",".intercalate (compactItems items) ++ "]"
  | .object fields => "\x7b" ++ ",".intercalate (compactFields fields) ++ "\x7d"

/-- The texts of a list's items. -/
def compactItems : List Value → List String
  | [] => []
  | v :: rest => compact v :: compactItems rest

/-- The texts of an object's fields. -/
def compactFields : List (String × Value) → List String
  | [] => []
  | (key, v) :: rest => (quote key ++ ":" ++ compact v) :: compactFields rest

end

/-- The parts of a list or object between its brackets, each on a line of its own, two blanks
further in than the brackets at `depth`. -/
def block (opening closing : String) (depth : Nat) (parts : List String) : String :=
  let line := fun n => "\n" ++ String.ofList (List.replicate (2 * n) ' ')
  if parts.isEmpty then opening ++ closing
  else opening ++ line (depth + 1) ++ ("," ++ line (depth + 1)).intercalate parts ++ line depth
    ++ closing

mutual

/-- The text of a value over several lines, where it starts at `depth` levels of indentation. -/
def indented (depth : Nat) : Value → String
  | .null => "null"
  | .bool b => if b then "true" else "false"
  | .number n => n.text
  | .text s => quote s
  | .list items => block "[" "]" depth (indentedItems (depth + 1) items)
  | .object fields => block "\x7b" "\x7d" depth (indentedFields (depth + 1) fields)

/-- The texts of a list's items. -/
def indentedItems (depth : Nat) : List Value → List String
  | [] => []
  | v :: rest => indented depth v :: indentedItems depth rest

/-- The texts of an object's fields. -/
def indentedFields (depth : Nat) : List (String × Value) → List String
  | [] => []
  | (key, v) :: rest => (quote key ++ ": " ++ indented depth v) :: indentedFields depth rest

end

end Json

end AccessRules

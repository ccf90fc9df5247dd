/-! The texts of TOML: basic ones, in which escapes are resolved, and literal ones, each within a
line or over several. A reader takes the characters after the opening quotes and gives back what
follows the closing ones. -/

namespace AccessRules

namespace Toml

/-- Reads something off the front of the characters. -/
abbrev Reader (α : Type) := List Char → Option (α × List Char)

/-- The blanks within a line. -/
def isBlank (c : Char) : Bool := c == ' ' || c == '\t'

/-- The characters that a line may hold: a tab and all that are no control characters. -/
def isPrinted (c : Char) : Bool := c == '\t' || (0x20 ≤ c.toNat && c.toNat != 0x7f)

/-- The characters that stand for themselves in a basic text. -/
def isBasic (c : Char) : Bool := isPrinted c && c != '"' && c != '\\'

/-- The characters after a line break; nothing when there is none. -/
def afterBreak? : List Char → Option (List Char)
  | '\n' :: rest => some rest
  | '\r' :: '\n' :: rest => some rest
  | _ => none

/-- The characters without a line break at the front. -/
def dropBreak (chars : List Char) : List Char := (afterBreak? chars).getD chars

namespace Text

/-- The value of a hexadecimal digit. -/
def hexDigit? (c : Char) : Option Nat :=
  if c.isDigit then some (c.toNat - '0'.toNat)
  else if 'a' ≤ c ∧ c ≤ 'f' then some (c.toNat - 'a'.toNat + 10)
  else if 'A' ≤ c ∧ c ≤ 'F' then some (c.toNat - 'A'.toNat + 10)
  else none

/-- The character of a code in hexadecimal; a surrogate is none. -/
def coded? (digits : List Char) : Option Char := do
  let code ← digits.foldlM (fun n c => (hexDigit? c).map (16 * n + ·)) 0
  if code.isValidChar then some (Char.ofNat code) else none

/-- The character of a one-letter escape. -/
def escaped? : Char → Option Char
  | 'b' => some '\x08'
  | 't' => some '\t'
  | 'n' => some '\n'
  | 'f' => some '\x0c'
  | 'r' => some '\r'
  | '"' => some '"'
  | '\\' => some '\\'
  | _ => none

/-- Puts a character before what was read. -/
def put (c : Option Char) (read : Option (List Char × List Char)) :
    Option (List Char × List Char) := do
  let (chars, rest) ← read
  return ((← c) :: chars, rest)

/-- A basic text within a line. -/
def basic : Reader (List Char)
  | '"' :: rest => some ([], rest)
  | '\\' :: 'u' :: a :: b :: c :: d :: rest => put (coded? [a, b, c, d]) (basic rest)
  | '\\' :: 'U' :: a :: b :: c :: d :: e :: f :: g :: h :: rest =>
    put (coded? [a, b, c, d, e, f, g, h]) (basic rest)
  | '\\' :: c :: rest => put (escaped? c) (basic rest)
  | c :: rest => if isBasic c then put (some c) (basic rest) else none
  | [] => none

/-- A literal text within a line. -/
def literal : Reader (List Char)
  | '\'' :: rest => some ([], rest)
  | c :: rest => if isPrinted c then put (some c) (literal rest) else none
  | [] => none

/-- Whether a line ends after no more than blanks. -/
def lineEnds (chars : List Char) : Bool := (afterBreak? (chars.dropWhile isBlank)).isSome

/-- A basic text over several lines. A line break counts as a line feed; one after a backslash is
left out with the blanks and line breaks around it, which are being `skipped`. Up to two quotes may
stand before the three that close the text. -/
def basicLines (skipped : Bool) : Reader (List Char)
  | '"' :: '"' :: '"' :: '"' :: '"' :: rest => some (['"', '"'], rest)
  | '"' :: '"' :: '"' :: '"' :: rest => some (['"'], rest)
  | '"' :: '"' :: '"' :: rest => some ([], rest)
  | '"' :: rest => put (some '"') (basicLines false rest)
  | '\n' :: rest =>
    if skipped then basicLines true rest else put (some '\n') (basicLines false rest)
  | '\r' :: '\n' :: rest =>
    if skipped then basicLines true rest else put (some '\n') (basicLines false rest)
  | '\\' :: 'u' :: a :: b :: c :: d :: rest => put (coded? [a, b, c, d]) (basicLines false rest)
  | '\\' :: 'U' :: a :: b :: c :: d :: e :: f :: g :: h :: rest =>
    put (coded? [a, b, c, d, e, f, g, h]) (basicLines false rest)
  | '\\' :: c :: rest =>
    if lineEnds (c :: rest) then basicLines true (c :: rest)
    else put (escaped? c) (basicLines false rest)
  | c :: rest =>
    if skipped && isBlank c then basicLines true rest
    else if isBasic c then put (some c) (basicLines false rest)
    else none
  | [] => none

/-- A literal text over several lines. -/
def literalLines : Reader (List Char)
  | '\'' :: '\'' :: '\'' :: '\'' :: '\'' :: rest => some (['\'', '\''], rest)
  | '\'' :: '\'' :: '\'' :: '\'' :: rest => some (['\''], rest)
  | '\'' :: '\'' :: '\'' :: rest => some ([], rest)
  | '\r' :: '\n' :: rest => put (some '\n') (literalLines rest)
  | c :: rest =>
    if isPrinted c || c == '\n' then put (some c) (literalLines rest) else none
  | [] => none

/-- A text of any form, from its opening quotes on. A line break after three of them is left out. -/
def read? : Reader String := fun chars =>
  let text : Option (List Char × List Char) :=
    match chars with
    | '"' :: '"' :: '"' :: rest => basicLines false (dropBreak rest)
    | '"' :: rest => basic rest
    | '\'' :: '\'' :: '\'' :: rest => literalLines (dropBreak rest)
    | '\'' :: rest => literal rest
    | _ => none
  text.map fun (chars, rest) => (String.ofList chars, rest)

end Text

end Toml

end AccessRules

/-! The tokens of a JSON text. The scanner is a machine that takes one character at a time: it skips
blanks between tokens, gathers words (literals and numerals), and resolves the escapes of texts,
a pair of surrogates to one character. -/

namespace AccessRules

namespace Json

/-- A token; what a word says is left to the reader. -/
inductive Token where
  | openObject
  | closeObject
  | openList
  | closeList
  | colon
  | comma
  | text (s : String)
  | word (chars : List Char)
  deriving DecidableEq

namespace Token

/-- The token of a punctuation mark. -/
def ofMark? : Char → Option Token
  | '{' => some openObject
  | '}' => some closeObject
  | '[' => some openList
  | ']' => some closeList
  | ':' => some colon
  | ',' => some comma
  | _ => none

/-- The blanks between tokens. -/
def isBlank (c : Char) : Bool := c == ' ' || c == '\n' || c == '\t' || c == '\r'

/-- The value of a hexadecimal digit. -/
def hexDigit? (c : Char) : Option Nat :=
  if c.isDigit then some (c.toNat - '0'.toNat)
  else if 'a' ≤ c ∧ c ≤ 'f' then some (c.toNat - 'a'.toNat + 10)
  else if 'A' ≤ c ∧ c ≤ 'F' then some (c.toNat - 'A'.toNat + 10)
  else none

/-- The character of a one-letter escape. -/
def escaped? : Char → Option Char
  | '"' => some '"'
  | '\\' => some '\\'
  | '/' => some '/'
  | 'b' => some '\x08'
  | 'f' => some '\x0c'
  | 'n' => some '\n'
  | 'r' => some '\r'
  | 't' => some '\t'
  | _ => none

/-- Where the scanner stands; the characters of an open word or text are kept in reverse. -/
inductive Mode where
  /-- Between tokens. -/
  | between
  | inWord (word : List Char)
  | inText (text : List Char)
  /-- After a backslash. -/
  | escape (text : List Char)
  /-- In the digits of a `\u` escape, with the high surrogate that precedes it, if any. -/
  | code (text : List Char) (high : Option Nat) (count value : Nat)
  /-- After a high surrogate, before its partner's backslash. -/
  | partner (text : List Char) (high : Nat)
  /-- After the partner's backslash. -/
  | partnerLetter (text : List Char) (high : Nat)

/-- The tokens read so far, in reverse, and the mode. -/
structure Scan where
  tokens : List Token
  mode : Mode

/-- The mode after the last digit of an escape with code unit `unit`: a low surrogate completes a
high one, and neither may stand alone. -/
def codeUnit? (text : List Char) (high : Option Nat) (unit : Nat) : Option Mode :=
  match high with
  | some h =>
    if 0xDC00 ≤ unit ∧ unit ≤ 0xDFFF then
      some (.inText (Char.ofNat (0x10000 + (h - 0xD800) * 0x400 + (unit - 0xDC00)) :: text))
    else none
  | none =>
    if 0xD800 ≤ unit ∧ unit ≤ 0xDBFF then some (.partner text unit)
    else if 0xDC00 ≤ unit ∧ unit ≤ 0xDFFF then none
    else some (.inText (Char.ofNat unit :: text))

/-- One character between tokens. -/
def start (tokens : List Token) (c : Char) : Scan :=
  if isBlank c then ⟨tokens, .between⟩
  else if c == '"' then ⟨tokens, .inText []⟩
  else match ofMark? c with
    | some t => ⟨t :: tokens, .between⟩
    | none => ⟨tokens, .inWord [c]⟩

/-- One character; nothing when no token can continue with it. -/
def step (s : Scan) (c : Char) : Option Scan :=
  match s.mode with
  | .between => some (start s.tokens c)
  | .inWord w =>
    if isBlank c || c == '"' || (ofMark? c).isSome then
      some (start (.word w.reverse :: s.tokens) c)
    else some ⟨s.tokens, .inWord (c :: w)⟩
  | .inText t =>
    if c == '"' then some ⟨.text (String.ofList t.reverse) :: s.tokens, .between⟩
    else if c == '\\' then some ⟨s.tokens, .escape t⟩
    else if c.toNat < 0x20 then none
    else some ⟨s.tokens, .inText (c :: t)⟩
  | .escape t =>
    if c == 'u' then some ⟨s.tokens, .code t none 0 0⟩
    else (escaped? c).map fun e => ⟨s.tokens, .inText (e :: t)⟩
  | .code t high count value => do
    let unit := 16 * value + (← hexDigit? c)
    if count = 3 then (codeUnit? t high unit).map (⟨s.tokens, ·⟩)
    else some ⟨s.tokens, .code t high (count + 1) unit⟩
  | .partner t high => if c == '\\' then some ⟨s.tokens, .partnerLetter t high⟩ else none
  | .partnerLetter t high => if c == 'u' then some ⟨s.tokens, .code t (some high) 0 0⟩ else none

/-- The tokens of a text; nothing when a text is left open or holds what no escape allows. -/
def scan? (chars : List Char) : Option (List Token) := do
  let s ← chars.foldlM step ⟨[], .between⟩
  match s.mode with
  | .between => return s.tokens.reverse
  | .inWord w => return (.word w.reverse :: s.tokens).reverse
  | _ => none

end Token

end Json

end AccessRules

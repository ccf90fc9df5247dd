import AccessRules.Toml.Data
import AccessRules.Toml.Scalar
import AccessRules.Toml.Text

/-! Reading a TOML document: headers and assignments line by line, where the value of an assignment
may run over several lines. Lists and inline tables are nested at most 79 deep, and a key has at
most 79 parts. -/

namespace AccessRules

namespace Toml

/-- The characters after the blanks of a line. -/
def afterBlanks (chars : List Char) : List Char := chars.dropWhile isBlank

/-- The characters after the comment that a line may end with; nothing when the line goes on. -/
def afterLine? (chars : List Char) : Option (List Char) :=
  let rest :=
    match afterBlanks chars with
    | '#' :: comment => comment.dropWhile isPrinted
    | rest => rest
  if rest.isEmpty then some [] else afterBreak? rest

/-- The characters after blanks, line breaks and comments, of which at most `count` are passed. -/
def afterLines : Nat → List Char → List Char
  | 0, chars => chars
  | count + 1, chars =>
    match afterBlanks chars with
    | [] => []
    | c :: rest =>
      if c == '#' || (afterBreak? (c :: rest)).isSome then
        match afterLine? (c :: rest) with
        | some rest => afterLines count rest
        | none => c :: rest
      else c :: rest

/-! ### Keys -/

/-- The most parts that a key may have, and the most lists and inline tables that may be open. -/
def maxNesting : Nat := 79

/-- The characters of a key without quotes. -/
def isBare (c : Char) : Bool := c.isAlphanum || c == '_' || c == '-'

/-- One part of a key, with or without quotes. -/
def part? : Reader String
  | '"' :: rest => (Text.basic rest).map fun (chars, rest) => (String.ofList chars, rest)
  | '\'' :: rest => (Text.literal rest).map fun (chars, rest) => (String.ofList chars, rest)
  | chars =>
    let bare := chars.takeWhile isBare
    if bare.isEmpty then none else some (String.ofList bare, chars.dropWhile isBare)

/-- A key of at most `count` parts, with the blanks around them: the path that leads to its table,
and its last part. -/
def key? : Nat → Reader (List String × String)
  | 0, _ => none
  | count + 1, chars => do
    let (part, rest) ← part? (afterBlanks chars)
    match afterBlanks rest with
    | '.' :: rest =>
      let ((path, last), rest) ← key? count rest
      return ((part :: path, last), rest)
    | rest => return (([], part), rest)

/-! ### Values -/

/-- The characters of truth values, numbers and times. -/
def isScalar (c : Char) : Bool :=
  c.isAlphanum || c == '+' || c == '-' || c == '_' || c == '.' || c == ':'

/-- A value that has no quotes and no brackets. A date may have a blank before its time. -/
def scalar? : Reader Item := fun chars =>
  let row := chars.takeWhile isScalar
  let rest := chars.dropWhile isScalar
  match Scalar.isDate row, rest with
  | true, ' ' :: c :: more =>
    if c.isDigit then
      let time := (c :: more).takeWhile isScalar
      (Scalar.item? (row ++ 'T' :: time)).map fun item => (item, (c :: more).dropWhile isScalar)
    else some (.time, rest)
  | _, _ => (Scalar.item? row).map fun item => (item, rest)

/-- The items of a list after its bracket, at most `count` of them. -/
def items? (value? : Reader Item) : Nat → Reader (List Item)
  | 0, _ => none
  | count + 1, chars =>
    let skip := fun chars => afterLines chars.length chars
    match skip chars with
    | ']' :: rest => some ([], rest)
    | chars => do
      let (item, rest) ← value? chars
      match skip rest with
      | ',' :: rest =>
        let (items, rest) ← items? value? count rest
        return (item :: items, rest)
      | ']' :: rest => return ([item], rest)
      | _ => none

/-- The assignments of an inline table, at most `count` of them, on top of its first entries. -/
def assignments? (value? : Reader Item) : Nat → Entries → Reader Entries
  | 0, _, _ => none
  | count + 1, entries, chars => do
    let ((path, key), rest) ← key? maxNesting chars
    let '=' :: rest := rest | none
    let (item, rest) ← value? (afterBlanks rest)
    let entries ← entries.assign? path key item .inline
    match afterBlanks rest with
    | ',' :: rest => assignments? value? count entries rest
    | '}' :: rest => return (entries, rest)
    | _ => none

/-- A value with at most so many lists and inline tables open at once. -/
def value? : Nat → Reader Item
  | depth + 1, '[' :: rest =>
    (items? (value? depth) (rest.length + 1) rest).map fun (items, rest) => (.list items, rest)
  | depth + 1, '{' :: rest =>
    match afterBlanks rest with
    | '}' :: rest => some (.table .inline [], rest)
    | chars =>
      (assignments? (value? depth) (chars.length + 1) [] chars).map fun (entries, rest) =>
        (.table .inline entries, rest)
  | _, '"' :: rest => (Text.read? ('"' :: rest)).map fun (s, rest) => (.text s, rest)
  | _, '\'' :: rest => (Text.read? ('\'' :: rest)).map fun (s, rest) => (.text s, rest)
  | _, chars => scalar? chars

/-! ### Documents -/

/-- What has been read of a document: its entries, and the path of the table to which assignments
go. -/
structure Progress where
  entries : Entries
  current : List String

namespace Progress

/-- One header or assignment, and the characters after its line. -/
def step? (p : Progress) : List Char → Option (Progress × List Char)
  | '[' :: '[' :: rest => do
    let ((path, key), rest) ← key? maxNesting rest
    let ']' :: ']' :: rest := rest | none
    let entries ← p.entries.element? path key
    return (⟨entries, path ++ [key]⟩, ← afterLine? rest)
  | '[' :: rest => do
    let ((path, key), rest) ← key? maxNesting rest
    let ']' :: rest := rest | none
    let entries ← p.entries.header? path key
    return (⟨entries, path ++ [key]⟩, ← afterLine? rest)
  | chars => do
    let ((path, key), rest) ← key? maxNesting chars
    let '=' :: rest := rest | none
    let (item, rest) ← value? maxNesting (afterBlanks rest)
    let entries ← p.entries.alter? .implied (Entries.assign? path key item) p.current .header
    return ({ p with entries }, ← afterLine? rest)

end Progress

/-- The entries of the lines that are left, at most `count` of them. -/
def lines? : Nat → Progress → List Char → Option Entries
  | 0, _, _ => none
  | count + 1, p, chars =>
    match afterLines chars.length chars with
    | [] => some p.entries
    | chars => do
      let (p, rest) ← p.step? chars
      lines? count p rest

/-- The entries of a document; nothing when it is not well formed. A byte order mark may come
first. -/
def read? (text : String) : Option Entries :=
  let chars :=
    match text.toList with
    | '\ufeff' :: rest => rest
    | chars => chars
  lines? (chars.length + 1) ⟨[], []⟩ chars

end Toml

end AccessRules

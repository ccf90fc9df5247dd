import AccessRules.Value
import AccessRules.Json.Numeral
import AccessRules.Json.Token

/-! Reading a JSON text as a value. The reader is a machine over the tokens with one frame for each
list or object that is open, at most 127 of them. A key that occurs again gives the first field of
that key its value. -/

namespace AccessRules

namespace Json

/-- An open list, with its items in reverse, or an open object, with the key that awaits a value. -/
inductive Frame where
  | list (items : List Value)
  | object (fields : Document) (key : String)

/-- What the reader awaits. -/
inductive Expect where
  | value
  /-- A value or the end of the list. -/
  | firstItem
  /-- A key or the end of the object. -/
  | firstKey
  | key
  | colon
  /-- A comma or the end of the list or object. -/
  | next
  /-- Nothing more: the text is complete. -/
  | done (v : Value)

/-- The open frames, innermost first, and what is awaited. -/
structure Progress where
  frames : List Frame
  expect : Expect

/-- How many lists and objects may be open at once. -/
def maxDepth : Nat := 127

namespace Progress

/-- A value is complete: it goes into the innermost frame, or it is the whole text. -/
def complete (v : Value) : List Frame → Progress
  | [] => ⟨[], .done v⟩
  | .list items :: frames => ⟨.list (v :: items) :: frames, .next⟩
  | .object fields key :: frames => ⟨.object (fields.insert key v) key :: frames, .next⟩

/-- A list or object opens, unless too many are open. -/
def enter (frame : Frame) (expect : Expect) (frames : List Frame) : Option Progress :=
  if frames.length < maxDepth then some ⟨frame :: frames, expect⟩ else none

/-- A value starts with this token. -/
def begin? (frames : List Frame) : Token → Option Progress
  | .openObject => enter (.object [] "") .firstKey frames
  | .openList => enter (.list []) .firstItem frames
  | .text s => some (complete (.text s) frames)
  | .word ['n', 'u', 'l', 'l'] => some (complete .null frames)
  | .word ['t', 'r', 'u', 'e'] => some (complete (.bool true) frames)
  | .word ['f', 'a', 'l', 's', 'e'] => some (complete (.bool false) frames)
  | .word chars => (Number.ofNumeral? chars).map fun n => complete (.number n) frames
  | _ => none

/-- The innermost list or object ends. -/
def close? : List Frame → Token → Option Progress
  | .list items :: frames, .closeList => some (complete (.list items.reverse) frames)
  | .object fields _ :: frames, .closeObject => some (complete (.object fields) frames)
  | _, _ => none

/-- A key is read in the innermost object. -/
def key? : List Frame → Token → Option Progress
  | .object fields _ :: frames, .text key => some ⟨.object fields key :: frames, .colon⟩
  | _, _ => none

/-- One token; nothing when it is not what is awaited. -/
def step (p : Progress) (t : Token) : Option Progress :=
  match p.expect with
  | .value => begin? p.frames t
  | .firstItem => if t = .closeList then close? p.frames t else begin? p.frames t
  | .firstKey => if t = .closeObject then close? p.frames t else key? p.frames t
  | .key => key? p.frames t
  | .colon => if t = .colon then some ⟨p.frames, .value⟩ else none
  | .next =>
    if t = .comma then
      match p.frames with
      | .list _ :: _ => some ⟨p.frames, .value⟩
      | .object _ _ :: _ => some ⟨p.frames, .key⟩
      | [] => none
    else close? p.frames t
  | .done _ => none

end Progress

/-- The value that a text denotes; nothing when it is not one JSON value. -/
def read? (text : String) : Option Value := do
  let tokens ← Token.scan? text.toList
  let p ← tokens.foldlM Progress.step ⟨[], .value⟩
  match p.expect with
  | .done v => return v
  | _ => none

end Json

end AccessRules

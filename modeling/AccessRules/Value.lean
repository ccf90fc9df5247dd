import AccessRules.Number

/-! Values of subject fields and of condition documents. An object keeps its fields in the order in
which they were written. Two values are `same` when they are written alike, up to the order of an
object's fields; `equal` compares two numbers by value and everything else with `same`. -/

namespace AccessRules

/-- A value of a data document. -/
inductive Value where
  | null
  | bool (b : Bool)
  | number (n : Number)
  | text (s : String)
  | list (items : List Value)
  | object (fields : List (String × Value))
  deriving Inhabited

/-- The fields of an object, in order; no key occurs twice in one that was read. -/
abbrev Document := List (String × Value)

namespace Document

/-- The value of a field. -/
def get? (d : Document) (key : String) : Option Value := d.lookup key

/-- The keys in order. -/
def keys (d : Document) : List String := d.map Prod.fst

/-- Whether some field has the key. -/
def hasKey (d : Document) (key : String) : Bool := d.any (·.1 == key)

/-- A field takes the place of the one with its key, or the last place. -/
def insert : Document → String → Value → Document
  | [], key, value => [(key, value)]
  | (k, v) :: rest, key, value =>
    if k == key then (k, value) :: rest else (k, v) :: insert rest key value

end Document

namespace Value

mutual

/-- Equality as written: numbers of one kind by value, objects up to the order of their fields. -/
def same : Value → Value → Bool
  | null, null => true
  | bool a, bool b => a == b
  | number m, number n => m.same n
  | text s, text t => s == t
  | list xs, list ys => sameItems xs ys
  | object fs, object gs => fs.length == gs.length && sameFields fs gs
  | _, _ => false

/-- Two lists are the same item by item. -/
def sameItems : List Value → List Value → Bool
  | [], [] => true
  | x :: xs, y :: ys => same x y && sameItems xs ys
  | _, _ => false

/-- Every field of the first document is the same in the second. -/
def sameFields : List (String × Value) → List (String × Value) → Bool
  | [], _ => true
  | (key, x) :: fs, gs =>
    (match gs.lookup key with
      | some y => same x y
      | none => false) && sameFields fs gs

end

/-- Equality of a field's value and a value it is compared with: two numbers by value, all else as
written. -/
def equal : Value → Value → Bool
  | number m, number n => m.equal n
  | a, b => same a b

/-- Null is what a missing field counts as. -/
def isNull : Value → Bool
  | null => true
  | _ => false

/-- Lists and objects have parts; every other value is scalar. -/
def isScalar : Value → Bool
  | list _ => false
  | object _ => false
  | _ => true

/-- The order of two numbers or of two texts, the latter by code point; other pairs have none. -/
def compare? : Value → Value → Option Ordering
  | number m, number n => some (m.compare n)
  | text s, text t => some (Ord.compare s t)
  | _, _ => none

end Value

end AccessRules

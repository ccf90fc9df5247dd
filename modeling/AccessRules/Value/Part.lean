import AccessRules.Value

/-! The parts of a record, read from values. A part that is `none` was left out; an optional part
may also be null. -/

namespace AccessRules

namespace Value

/-- A text that must be there. -/
def text? : Option Value → Option String
  | some (text s) => some s
  | _ => none

/-- A text that may be left out. -/
def optionalText? : Option Value → Option (Option String)
  | none => some none
  | some null => some none
  | some (text s) => some (some s)
  | _ => none

/-- A truth value that may be left out. -/
def optionalBool? : Option Value → Option (Option Bool)
  | none => some none
  | some null => some none
  | some (bool b) => some (some b)
  | _ => none

/-- A list of texts that may be left out. -/
def optionalTexts? : Option Value → Option (Option (List String))
  | none => some none
  | some null => some none
  | some (list items) => (items.mapM fun v => text? (some v)).map some
  | _ => none

/-- An object that may be left out. -/
def optionalObject? : Option Value → Option (Option Document)
  | none => some none
  | some null => some none
  | some (object d) => some (some d)
  | _ => none

/-- The fields of an object for the parts that are there. -/
def present (key : String) : Option Value → Document
  | none => []
  | some v => [(key, v)]

end Value

end AccessRules

import AccessRules.Text
import AccessRules.Value

/-! How a clause refers to its parameters: by number after a dollar sign or a question mark, or by a
question mark alone. -/

namespace AccessRules

namespace Sql

/-- A style of placeholders. -/
inductive Placeholder where
  | dollar
  | questionNumbered
  | question
  deriving DecidableEq

namespace Placeholder

/-- The name of a style in configurations. -/
def name : Placeholder → String
  | dollar => "dollar"
  | questionNumbered => "question_numbered"
  | question => "question"

/-- The style of an exact name. -/
def ofName? (name : String) : Option Placeholder :=
  [dollar, questionNumbered, question].find? (·.name == name)

theorem ofName?_name (p : Placeholder) : ofName? p.name = some p := by cases p <;> rfl

/-- Reads a style: its exact name, or an object with the name as its only key and null for a
value. -/
def ofValue? : Value → Option Placeholder
  | .text name => ofName? name
  | .object [(name, .null)] => ofName? name
  | _ => none

/-- A style that is not known, as it was looked up. -/
structure Unknown where
  style : String

/-- What is said of a style that is not known. -/
def Unknown.message (e : Unknown) : String := "unknown placeholder style: " ++ e.style

/-- The style of a name or sign, without regard to the case of ASCII letters and to blanks around
it. -/
def parse (text : String) : Except Unknown Placeholder :=
  let style := Text.lower (Text.trim text)
  match style with
  | "dollar" | "$" => .ok dollar
  | "question_numbered" | "?n" => .ok questionNumbered
  | "question" | "?" => .ok question
  | _ => .error ⟨style⟩

/-- The placeholder of the parameter with a number. -/
def chars (p : Placeholder) (number : UInt64) : List Char :=
  match p with
  | dollar => '$' :: Nat.toDigits 10 number.toNat
  | questionNumbered => '?' :: Nat.toDigits 10 number.toNat
  | question => ['?']

end Placeholder

end Sql

end AccessRules

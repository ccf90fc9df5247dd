import AccessRules.Sql.Clause
import AccessRules.Sql.Placeholder

/-! Clauses as tokens and tokens as text. A column is written as an identifier: its name between
double quotes, in which a quote is written twice. A parameter is a token with its value; the text
gets its placeholder, and the placeholders are numbered from left to right. -/

namespace AccessRules

namespace Sql

/-- A name with its quotes doubled. -/
def doubled : List Char → List Char
  | [] => []
  | c :: rest => if c = '"' then '"' :: '"' :: doubled rest else c :: doubled rest

/-- A name as an identifier. -/
def identifier (name : String) : String := String.ofList ('"' :: doubled name.toList ++ ['"'])

/-- A word of a clause. -/
inductive Keyword where
  | true
  | false
  | not
  | and
  | or
  | is
  | null
  | in
  deriving DecidableEq

/-- The spelling of a word. -/
def Keyword.text : Keyword → String
  | .true => "true"
  | .false => "false"
  | .not => "not"
  | .and => "and"
  | .or => "or"
  | .is => "is"
  | .null => "null"
  | .in => "in"

/-- A comparison of a column and a parameter. -/
inductive Comparison where
  | equal
  | unequal
  | greater
  | greaterEqual
  | less
  | lessEqual
  deriving DecidableEq

/-- The sign of a comparison. -/
def Comparison.text : Comparison → String
  | equal => "="
  | unequal => "<>"
  | greater => ">"
  | greaterEqual => ">="
  | less => "<"
  | lessEqual => "<="

/-- A token of a clause. -/
inductive Token where
  | keyword (k : Keyword)
  | comparison (c : Comparison)
  | opening
  | closing
  | comma
  | column (name : String)
  | param (value : Value)

namespace Token

/-- The value of a parameter. -/
def value? : Token → Option Value
  | param v => some v
  | _ => none

/-- The text of a token, where the next parameter has the given number. -/
def chars (style : Placeholder) (number : UInt64) : Token → List Char
  | keyword k => k.text.toList
  | comparison c => c.text.toList
  | opening => ['(']
  | closing => [')']
  | comma => [',']
  | column name => (identifier name).toList
  | param _ => style.chars number

/-- Whether a blank stands between two tokens: not after an opening parenthesis, nor before a
closing one or a comma. -/
def spaced : Token → Token → Bool
  | opening, _ => false
  | _, closing => false
  | _, comma => false
  | _, _ => true

/-- The text of some tokens, where the first parameter has the given number. After the last word
the numbers start again at zero. -/
def write (style : Placeholder) : UInt64 → List Token → List Char
  | _, [] => []
  | number, [t] => t.chars style number
  | number, t :: u :: rest =>
    t.chars style number ++ (if spaced t u then [' '] else [])
      ++ write style (if t.value?.isSome then number + 1 else number) (u :: rest)

/-- The tokens of a list of parameters in parentheses. -/
def paramList : List Value → List Token
  | [] => [opening, closing]
  | v :: rest => opening :: param v :: rest.flatMap (fun w => [comma, param w]) ++ [closing]

/-- The tokens of a test for null. -/
def nullTest (name : String) (isNull : Bool) : List Token :=
  if isNull then [column name, keyword .is, keyword .null]
  else [column name, keyword .is, keyword .not, keyword .null]

/-- The tokens of a choice among values. A parameter is never null, so null is asked for by a test
of its own. -/
def membership (name : String) (items : List Value) (isIn : Bool) : List Token :=
  let values := items.filter fun v => !v.isNull
  let choice := column name :: (if isIn then [keyword .in] else [keyword .not, keyword .in])
    ++ paramList values
  if values.isEmpty then nullTest name isIn
  else if values.length == items.length then choice
  else opening :: choice ++ keyword (if isIn then .or else .and) :: nullTest name isIn ++ [closing]

/-- The tokens of a test on a column. -/
def ofTest (t : FieldTest) : List Token :=
  match t.test with
  | .equals .null | .present false => nullTest t.field true
  | .differs .null | .present true => nullTest t.field false
  | .equals v => [column t.field, comparison .equal, param v]
  | .differs v => [column t.field, comparison .unequal, param v]
  | .above v => [column t.field, comparison .greater, param v]
  | .atLeast v => [column t.field, comparison .greaterEqual, param v]
  | .below v => [column t.field, comparison .less, param v]
  | .atMost v => [column t.field, comparison .lessEqual, param v]
  | .oneOf items => membership t.field items true
  | .noneOf items => membership t.field items false
  | .unsupported _ _ => [keyword .false]

end Token

namespace Clause

mutual

/-- The tokens of a clause. -/
def tokens : Clause → List Token
  | constant true => [.keyword .true]
  | constant false => [.keyword .false]
  | all parts => .opening :: joined .and parts ++ [.closing]
  | any parts => .opening :: joined .or parts ++ [.closing]
  | not (all parts) => .keyword .not :: .opening :: joined .and parts ++ [.closing]
  | not (any parts) => .keyword .not :: .opening :: joined .or parts ++ [.closing]
  | not part => .keyword .not :: .opening :: tokens part ++ [.closing]
  | atom t => Token.ofTest t

/-- The tokens of some clauses with a word between them. -/
def joined (word : Keyword) : List Clause → List Token
  | [] => []
  | [c] => tokens c
  | c :: rest => tokens c ++ .keyword word :: joined word rest

end

end Clause

end Sql

end AccessRules

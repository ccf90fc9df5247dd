import AccessRules.Proofs.Sql.Lowering

/-! The placeholders of a fragment and its parameters. Left to right, each placeholder of the clause
stands for the next parameter, which is the next value other than null that the clause compares a
column with. What is written between the placeholders depends on neither their style nor where their
numbers start. The numbers are words: they go up from the offset by one, and start again at zero
when there are more parameters than words are left. -/

namespace AccessRules

/-- The values that a test compares with. -/
def Test.operands : Test → List Value
  | equals v | differs v | above v | atLeast v | below v | atMost v => [v]
  | oneOf items | noneOf items => items
  | present _ | unsupported _ _ => []

/-- The values that are parameters: null is asked for by a test of its own. -/
def FieldTest.params (t : FieldTest) : List Value := t.test.operands.filter fun v => !v.isNull

namespace Sql

/-! ### Tests of a clause -/

namespace Clause

mutual

/-- The tests of a clause from left to right. -/
def tests : Clause → List FieldTest
  | constant _ => []
  | all parts => testsOf parts
  | any parts => testsOf parts
  | not part => tests part
  | atom t => [t]

def testsOf : List Clause → List FieldTest
  | [] => []
  | c :: rest => tests c ++ testsOf rest

end

theorem testsOf_eq_flatMap (parts : List Clause) : testsOf parts = parts.flatMap tests := by
  induction parts with
  | nil => rfl
  | cons c rest ih => rw [testsOf, ih, List.flatMap_cons]

theorem tests_all (parts : List Clause) : (all parts).tests = parts.flatMap tests := by
  rw [tests, testsOf_eq_flatMap]

theorem tests_any (parts : List Clause) : (any parts).tests = parts.flatMap tests := by
  rw [tests, testsOf_eq_flatMap]

end Clause

namespace Token

end Token

namespace Clause

end Clause

/-! ### Numbers -/

namespace Lexeme

/-- The number of a placeholder, if the lexeme is one. -/
def placeholder? : Lexeme → Option (Option Nat)
  | placeholder number => some number
  | _ => none

end Lexeme

end Sql

end AccessRules

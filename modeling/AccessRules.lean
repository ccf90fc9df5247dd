import AccessRules.Authorizer
import AccessRules.Json.Reader
import AccessRules.Main
import AccessRules.RuleStore
import AccessRules.Proofs.Filter.Admission
import AccessRules.Proofs.Sql.Condition
import AccessRules.Proofs.Sql.Lexeme
import AccessRules.Proofs.Sql.Identifier
import AccessRules.Proofs.Sql.Reading
import AccessRules.Proofs.Formula.Polarity
import AccessRules.Proofs.Sql.Lowering
import AccessRules.Proofs.Sql.Selection
import AccessRules.Proofs.FilterDocument.Meaning
import AccessRules.Proofs.FilterDocument.Rendering
import AccessRules.Proofs.Ability.Verdict
import AccessRules.Proofs.Roles.Expansion
import AccessRules.Proofs.FilterDocument.FieldNames
import AccessRules.Proofs.Subjects.History
import AccessRules.Proofs.Authorizer.Decision
import AccessRules.Proofs.Authorizer.Session
import AccessRules.Proofs.Sql.Widening
import AccessRules.Proofs.Sql.Numbering
import AccessRules.Proofs.Sql.Outline
import AccessRules.Proofs.Sql.Grammar
import AccessRules.Proofs.Sql.Residuals
import AccessRules.Proofs.Condition.Satisfaction
import AccessRules.Proofs.RuleStore.Lookup
import AccessRules.Proofs.Value.Sameness
import AccessRules.Proofs.Ability.Absence
import AccessRules.Proofs.Roles.Run
import AccessRules.Proofs.Roles.Repair
import AccessRules.Proofs.Authorizer.Reason
import AccessRules.Proofs.Authorizer.Resolution
import AccessRules.Proofs.Ability.Layers
import AccessRules.Proofs.Ability.Monotonicity
import AccessRules.Proofs.Ability.Repetition
import AccessRules.Proofs.Ability.EmptyCondition
import AccessRules.Proofs.Roles.Chronicle
import AccessRules.Proofs.Roles.Explanation
import AccessRules.Proofs.Ability.Rearrangement
import AccessRules.Proofs.Ability.SkippedConditions
import AccessRules.Proofs.Condition.Ranges
import AccessRules.Proofs.FilterDocument.Presence
import AccessRules.Proofs.Sql.NormalForm
import AccessRules.Proofs.Number.Exactness
import AccessRules.Proofs.Value.Places
import AccessRules.Proofs.Value.Equality
import AccessRules.Proofs.Sql.Binding
import AccessRules.Proofs.Json.DistinctKeys
import AccessRules.Proofs.Rule.Storage

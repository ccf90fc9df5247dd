import AccessRules.Filter

/-! Filters as documents for a document store. A field with its test is a field of the document, and
`$and`, `$or` and `$nor` connect lists of documents. A conjunction is merged into one document where
its parts have no field in common, or only operator objects without a common operator; otherwise it
is written out under `$and`. -/

namespace AccessRules

/-- A test as an operator object. A store takes a null field for one that is there, so presence is
asked for through null. -/
def Test.operators : Test → Value
  | equals v => .object [("$eq", v)]
  | differs v => .object [("$ne", v)]
  | oneOf items => .object [("$in", .list items)]
  | noneOf items => .object [("$nin", .list items)]
  | present true => .object [("$ne", .null)]
  | present false => .object [("$eq", .null)]
  | above bound => .object [("$gt", bound)]
  | atLeast bound => .object [("$gte", bound)]
  | below bound => .object [("$lt", bound)]
  | atMost bound => .object [("$lte", bound)]
  | unsupported _ whole => whole

/-- A test as the value of a field: a literal where it would not read as operators. -/
def Test.fieldValue : Test → Value
  | equals v => if v.isOperators then (equals v).operators else v
  | present false => .null
  | test => test.operators

/-- The document of a test on a field. -/
def FieldTest.document (t : FieldTest) : Document := [(t.field, t.test.fieldValue)]

namespace Document

/-- The operators of two operator objects together, where no operator is in both. -/
def mergeOperators? : Value → Value → Option Value
  | .object ds, .object es =>
    if isOperators ds && isOperators es && !es.any fun entry => hasKey ds entry.1 then
      some (.object (ds ++ es))
    else none
  | _, _ => none

/-- A document with one more condition. -/
def mergeField? (d : Document) (entry : String × Value) : Option Document :=
  match d.get? entry.1 with
  | none => some (d ++ [entry])
  | some v => (mergeOperators? v entry.2).map (d.insert entry.1)

/-- The conditions of all documents in one, if they can be merged. -/
def merge? (ds : List Document) : Option Document := ds.flatten.foldlM mergeField? []

/-- The document that asks for all of some documents. -/
def conjunction (ds : List Document) : Document :=
  (merge? ds).getD [("$and", .list (ds.map .object))]

/-- The document that asks that none of some documents be satisfied. -/
def nor (ds : List Document) : Document := [("$nor", .list (ds.map .object))]

/-- The document that nothing satisfies. -/
def unsatisfiable : Document := nor [[]]

end Document

namespace Formula

mutual

/-- The document of a formula. -/
def document : Formula → Document
  | field t => t.document
  | all parts => Document.conjunction (documents parts)
  | any [] => Document.unsatisfiable
  | any parts => [("$or", .list ((documents parts).map .object))]
  | not (field t) => [(t.field, .object [("$not", t.test.operators)])]
  | not part => Document.nor [document part]

/-- The documents of some formulas. -/
def documents : List Formula → List Document
  | [] => []
  | f :: rest => document f :: documents rest

end

end Formula

/-- The document of a filter. -/
def Filter.document : Filter → Document
  | forbidden => Document.unsatisfiable
  | select allow deny =>
    Value.present "$or"
      (allow.map fun fs => .list (fs.map fun f => .object f.document))
    ++ (if deny.isEmpty then []
      else [("$and", .list (deny.map fun f => .object (Document.nor [f.document])))])

end AccessRules

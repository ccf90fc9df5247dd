import AccessRules.FilterDocument

/-! What the document of a filter asks of the fields of a subject. A connective needs a list of
documents for a value and is not met without one, any other key is a condition on the field of that
name, and a document asks for all of its entries. Merging keeps the meaning: operators that are put
together in one object ask for what they asked for apart. -/

namespace AccessRules

inductive Connective where
  | and
  | or
  | nor

namespace Connective

def ofKey? : String → Option Connective
  | "$and" => some and
  | "$or" => some or
  | "$nor" => some nor
  | _ => none

def apply (met : List Bool) : Connective → Bool
  | and => met.all id
  | or => met.any id
  | nor => !met.any id

theorem ofKey?_eq_none_of_field {key : String} (name : isOperatorName key = false) :
    ofKey? key = none := by
  unfold ofKey?
  split <;> first | rfl | contradiction

end Connective

/-! ### Meaning -/

namespace Document

mutual

/-- Whether the fields meet every entry of the document. -/
def isMet (fields : Document) : Document → Bool
  | [] => true
  | (key, value) :: rest => entryMet fields key value && isMet fields rest

/-- Whether the fields meet an entry: a connective of documents, or a condition on a field. -/
def entryMet (fields : Document) (key : String) : Value → Bool
  | .list items =>
    match Connective.ofKey? key with
    | some c => (itemsMet? fields items).any c.apply
    | none => (Formula.ofDocument [(key, .list items)]).holds fields
  | value => (Connective.ofKey? key).isNone && (Formula.ofDocument [(key, value)]).holds fields

/-- Whether the fields meet each of some documents; nothing when an item is not a document. -/
def itemsMet? (fields : Document) : List Value → Option (List Bool)
  | [] => some []
  | .object d :: rest => (itemsMet? fields rest).map (isMet fields d :: ·)
  | _ :: _ => none

end

variable (fields : Document)

theorem isMet_cons (entry : String × Value) (rest : Document) :
    isMet fields (entry :: rest) = (entryMet fields entry.1 entry.2 && isMet fields rest) := by
  rw [isMet]

theorem isMet_append (d e : Document) :
    isMet fields (d ++ e) = (isMet fields d && isMet fields e) := by
  induction d with
  | nil => rw [List.nil_append, isMet, Bool.true_and]
  | cons entry rest ih => rw [List.cons_append, isMet_cons, ih, isMet_cons, Bool.and_assoc]

theorem isMet_flatten (ds : List Document) :
    isMet fields ds.flatten = ds.all (isMet fields) := by
  induction ds with
  | nil => rw [List.flatten_nil, isMet, List.all_nil]
  | cons d rest ih => rw [List.flatten_cons, isMet_append, ih, List.all_cons]

theorem itemsMet?_objects (ds : List Document) :
    itemsMet? fields (ds.map .object) = some (ds.map (isMet fields)) := by
  induction ds with
  | nil => rfl
  | cons d rest ih => rw [List.map_cons, itemsMet?, ih]; rfl

theorem isMet_connective {key : String} {c : Connective} (h : Connective.ofKey? key = some c)
    (ds : List Document) :
    isMet fields [(key, .list (ds.map .object))] = c.apply (ds.map (isMet fields)) := by
  rw [isMet, isMet, Bool.and_true, entryMet, h, itemsMet?_objects]
  rfl

theorem isMet_and (ds : List Document) :
    isMet fields [("$and", .list (ds.map .object))] = ds.all (isMet fields) := by
  rw [isMet_connective fields rfl, Connective.apply, List.all_map]
  rfl

theorem isMet_or (ds : List Document) :
    isMet fields [("$or", .list (ds.map .object))] = ds.any (isMet fields) := by
  rw [isMet_connective fields rfl, Connective.apply, List.any_map]
  rfl

theorem isMet_nor (ds : List Document) : isMet fields (nor ds) = !ds.any (isMet fields) := by
  rw [nor, isMet_connective fields rfl, Connective.apply, List.any_map]
  rfl

theorem isMet_unsatisfiable : isMet fields unsatisfiable = false := by
  rw [unsatisfiable, isMet_nor]
  rfl

/-! ### Conditions on a field -/

theorem holds_ofDocument_singleton (key : String) (value : Value) :
    (Formula.ofDocument [(key, value)]).holds fields =
      (Formula.ofField key value).holds fields := by
  rw [Formula.ofDocument, Formula.holds_conjunction, List.map_singleton, List.all_cons,
    List.all_nil, Bool.and_true]

theorem entryMet_object (key : String) (d : Document) :
    entryMet fields key (.object d) =
      ((Connective.ofKey? key).isNone && (Formula.ofField key (.object d)).holds fields) := by
  rw [entryMet, holds_ofDocument_singleton]
  simp

/-- A key that does not name a connective is a field. -/
theorem entryMet_field {key : String} (name : Connective.ofKey? key = none) (value : Value) :
    entryMet fields key value = (Formula.ofField key value).holds fields := by
  cases value <;> simp [entryMet, name, holds_ofDocument_singleton]

/-! ### Merging -/

theorem isOperators_append {ds es : Document} (hd : ds.isOperators) (he : es.isOperators) :
    isOperators (ds ++ es) := by
  unfold isOperators at hd he ⊢
  obtain ⟨some_operator, hd⟩ := Bool.and_eq_true_iff.mp hd
  obtain ⟨-, he⟩ := Bool.and_eq_true_iff.mp he
  rw [List.all_append, hd, he]
  simpa using fun none => absurd none (by simpa using some_operator)

end Document

namespace Formula

variable (fields : Document) (field : String)

theorem ofOperators_append (ds es : Document) :
    ofOperators field (ds ++ es) =
      (ofOperators field ds).bind fun parts => (ofOperators field es).map (parts ++ ·) := by
  induction ds with
  | nil =>
    rw [List.nil_append, ofOperators]
    cases ofOperators field es <;> rfl
  | cons entry rest ih =>
    obtain ⟨operator, operand⟩ := entry
    rw [List.cons_append, ofOperators, ofOperators]
    cases ofOperator field operator operand with
    | error e => rfl
    | ok f =>
      rw [ih]
      cases ofOperators field rest with
      | error e => rfl
      | ok parts => cases ofOperators field es <;> rfl

/-- An operator object asks for every operator, and for what never holds when one is not
understood. -/
theorem holds_ofField_operators {ds : Document} (operators : ds.isOperators) :
    (ofField field (.object ds)).holds fields =
      match ofOperators field ds with
      | .ok parts => parts.all (holds fields)
      | .error _ => false := by
  rw [ofField, if_pos operators]
  cases ofOperators field ds with
  | ok parts => rw [holds_conjunction]
  | error e => rw [holds_field]; rfl

/-- Two operator objects in one ask for what both ask for. -/
theorem holds_ofField_append {ds es : Document} (hd : ds.isOperators) (he : es.isOperators) :
    (ofField field (.object (ds ++ es))).holds fields =
      ((ofField field (.object ds)).holds fields && (ofField field (.object es)).holds fields) := by
  rw [holds_ofField_operators fields field (Document.isOperators_append hd he),
    holds_ofField_operators fields field hd,
    holds_ofField_operators fields field he, ofOperators_append]
  cases ofOperators field ds with
  | error e => rfl
  | ok parts =>
    cases ofOperators field es with
    | error e => exact (Bool.and_false _).symm
    | ok others => exact List.all_append

end Formula

namespace Document

variable {fields : Document}

theorem entryMet_mergeOperators {v w u : Value} (key : String) (h : mergeOperators? v w = some u) :
    entryMet fields key u = (entryMet fields key v && entryMet fields key w) := by
  unfold mergeOperators? at h
  split at h
  · rename_i ds es
    split at h
    · rename_i mergeable
      obtain ⟨operators, -⟩ := Bool.and_eq_true_iff.mp mergeable
      obtain ⟨hd, he⟩ := Bool.and_eq_true_iff.mp operators
      obtain rfl := Option.some.inj h
      rw [entryMet_object, entryMet_object, entryMet_object,
        Formula.holds_ofField_append fields key hd he]
      cases (Connective.ofKey? key).isNone <;> rfl
    · contradiction
  · contradiction

/-- An entry that comes to ask for something more makes its document ask for that too. -/
theorem isMet_insert {d : Document} {key : String} {v u : Value} {more : Bool}
    (get : d.get? key = some v)
    (entry : entryMet fields key u = (entryMet fields key v && more)) :
    isMet fields (d.insert key u) = (isMet fields d && more) := by
  induction d with
  | nil => contradiction
  | cons first rest ih =>
    obtain ⟨k, w⟩ := first
    rw [get?, List.lookup_cons] at get
    rw [insert]
    by_cases h : k = key
    · subst h
      obtain rfl : w = v := by simpa using get
      rw [if_pos (beq_self_eq_true k), isMet, isMet, entry, Bool.and_assoc, Bool.and_assoc,
        Bool.and_comm more]
    · have other : (key == k) = false := beq_eq_false_iff_ne.mpr (Ne.symm h)
      have rest_get : Document.get? rest key = some v := by
        rw [other] at get
        exact get
      rw [if_neg (by simpa using h), isMet, ih rest_get, isMet, Bool.and_assoc]

theorem isMet_mergeField {d d' : Document} {entry : String × Value}
    (h : d.mergeField? entry = some d') :
    isMet fields d' = (isMet fields d && entryMet fields entry.1 entry.2) := by
  unfold mergeField? at h
  split at h
  case h_1 =>
    obtain rfl := Option.some.inj h
    rw [isMet_append, isMet_cons, isMet, Bool.and_true]
  case h_2 v get =>
    obtain ⟨u, merge, rfl⟩ := Option.map_eq_some_iff.mp h
    exact isMet_insert get (entryMet_mergeOperators entry.1 merge)

theorem isMet_foldlM {entries d d' : Document} (h : entries.foldlM mergeField? d = some d') :
    isMet fields d' = (isMet fields d && isMet fields entries) := by
  induction entries generalizing d with
  | nil =>
    obtain rfl := Option.some.inj h
    rw [isMet, Bool.and_true]
  | cons entry rest ih =>
    rw [List.foldlM_cons] at h
    obtain ⟨next, step, run⟩ := Option.bind_eq_some_iff.mp h
    rw [ih run, isMet_mergeField step, isMet_cons, Bool.and_assoc]

/-- Merged or not, the conjunction of some documents asks for all that they ask for. -/
theorem isMet_conjunction (fields : Document) (ds : List Document) :
    isMet fields (conjunction ds) = ds.all (isMet fields) := by
  rw [conjunction]
  cases merged : merge? ds with
  | none => exact isMet_and fields ds
  | some d =>
    rw [Option.getD_some, isMet_foldlM merged, isMet_flatten, isMet, Bool.true_and]

end Document

end AccessRules

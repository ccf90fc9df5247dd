import AccessRules.Proofs.Value.Sameness
import Mathlib.Data.List.Perm.Subperm

/-! The places of a value, which are paths of steps to an item of a list by its position and to a
field of an object by its key. Two values correspond when they have parts at the same places, and
these agree but for their own parts and up to a relation of numbers. Where no object has a key
twice, values are the same exactly when they correspond with the same numbers, so sameness does not
see the order of fields and is reflexive and symmetric. -/

namespace AccessRules

/-! ### Fields -/

namespace Document

variable {d : Document} {key : String}

theorem mem_of_get? {value : Value} (h : d.get? key = some value) : (key, value) ∈ d := by
  obtain ⟨before, after, rfl, -⟩ := List.lookup_eq_some_iff.mp h
  exact List.mem_append_cons_self

theorem get?_eq_none_iff : d.get? key = none ↔ key ∉ d.keys := by
  rw [get?, List.lookup_eq_none_iff, keys, List.mem_map]
  constructor
  · rintro apart ⟨entry, mem, rfl⟩
    simpa using apart entry mem
  · intro absent entry mem
    exact bne_iff_ne.mpr fun at_key => absent ⟨entry, mem, at_key.symm⟩

/-- Every field is the one of its key. -/
theorem get?_of_mem (distinct : d.keys.Nodup) {value : Value} (h : (key, value) ∈ d) :
    d.get? key = some value := by
  induction d with
  | nil => cases h
  | cons entry d ih =>
    obtain ⟨apart, distinct⟩ := List.nodup_cons.mp distinct
    rcases List.mem_cons.mp h with rfl | later
    · exact List.lookup_cons_self
    · have other : key ≠ entry.1 := by
        rintro rfl
        exact apart (List.mem_map.mpr ⟨_, later, rfl⟩)
      rw [get?, List.lookup_cons, beq_false_of_ne other]
      exact ih distinct later

end Document

theorem Number.same_refl (n : Number) : n.same n := by
  cases n <;> simp [same, Double.equal]

theorem Number.same_comm (m n : Number) : m.same n = n.same m := by
  cases m <;> cases n <;> simp [same, Double.equal, Bool.beq_comm]

namespace Value

/-! ### Places -/

/-- A step from a value to one of its parts. -/
inductive Step where
  | item (index : Nat)
  | field (key : String)

/-- The part that a step leads to. -/
def child? : Value → Step → Option Value
  | list items, .item index => items[index]?
  | object fields, .field key => Document.get? fields key
  | _, _ => none

/-- The part at a place. The empty path is the place of the value itself. -/
def at? : Value → List Step → Option Value
  | v, [] => some v
  | v, step :: rest => (v.child? step).bind fun part => at? part rest

theorem child?_cases {v part : Value} {step : Step} (h : v.child? step = some part) :
    (∃ items, v = list items ∧ part ∈ items) ∨
      ∃ fields key, v = object fields ∧ (key, part) ∈ fields := by
  cases v with
  | null | bool | number | text => cases h
  | list items =>
    cases step with
    | item index => exact .inl ⟨items, rfl, List.mem_of_getElem? h⟩
    | field key => cases h
  | object fields =>
    cases step with
    | item index => cases h
    | field key => exact .inr ⟨fields, key, rfl, Document.mem_of_get? h⟩

/-- What holds of a value whenever it holds of its parts holds of every value. -/
theorem child_induction {motive : Value → Prop}
    (parts : ∀ v, (∀ step part, v.child? step = some part → motive part) → motive v)
    (v : Value) : motive v := by
  induction v with
  | null | bool | number | text => exact parts _ nofun
  | list items ih =>
    refine parts _ fun step part found => ?_
    obtain ⟨_, ⟨⟩, mem⟩ | ⟨_, _, ⟨⟩, _⟩ := child?_cases found
    exact ih part mem
  | object fields ih =>
    refine parts _ fun step part found => ?_
    obtain ⟨_, ⟨⟩, _⟩ | ⟨_, key, ⟨⟩, mem⟩ := child?_cases found
    exact ih (key, part) mem

/-- No object in the value has a key twice. -/
inductive HasDistinctKeys : Value → Prop where
  | null : HasDistinctKeys null
  | bool (b : Bool) : HasDistinctKeys (bool b)
  | number (n : Number) : HasDistinctKeys (number n)
  | text (s : String) : HasDistinctKeys (text s)
  | list {items : List Value} (parts : ∀ v ∈ items, HasDistinctKeys v) :
      HasDistinctKeys (list items)
  | object {fields : Document} (distinct : fields.keys.Nodup)
      (parts : ∀ entry ∈ fields, HasDistinctKeys entry.2) : HasDistinctKeys (object fields)

theorem HasDistinctKeys.keys {fields : Document} (h : (Value.object fields).HasDistinctKeys) :
    fields.keys.Nodup := by
  cases h with
  | object distinct => exact distinct

theorem HasDistinctKeys.child {v part : Value} {step : Step} (h : v.HasDistinctKeys)
    (found : v.child? step = some part) : part.HasDistinctKeys := by
  obtain ⟨items, rfl, mem⟩ | ⟨fields, key, rfl, mem⟩ := child?_cases found
  · cases h with
    | list parts => exact parts part mem
  · cases h with
    | object distinct parts => exact parts (key, part) mem

/-! ### Correspondence -/

/-- Two values agree, but for their parts. -/
inductive Agree (numbers : Number → Number → Prop) : Value → Value → Prop where
  | null : Agree numbers null null
  | bool (b : Bool) : Agree numbers (bool b) (bool b)
  | number {m n : Number} (related : numbers m n) : Agree numbers (number m) (number n)
  | text (s : String) : Agree numbers (text s) (text s)
  | list (xs ys : List Value) : Agree numbers (list xs) (list ys)
  | object (fs gs : Document) : Agree numbers (object fs) (object gs)

/-- Two values have parts at the same places, and the parts at each place agree. -/
def Corresponds (numbers : Number → Number → Prop) (v w : Value) : Prop :=
  ∀ place, Option.Rel (Agree numbers) (v.at? place) (w.at? place)

variable {numbers others : Number → Number → Prop} {v w : Value}

theorem Agree.imp (h : Agree numbers v w)
    (imp : ∀ m n, v = .number m → w = .number n → numbers m n → others m n) :
    Agree others v w := by
  cases h with
  | null => exact .null
  | bool b => exact .bool b
  | number related => exact .number (imp _ _ rfl rfl related)
  | text s => exact .text s
  | list xs ys => exact .list xs ys
  | object fs gs => exact .object fs gs

theorem Agree.refl (same : ∀ n, numbers n n) (v : Value) : Agree numbers v v := by
  cases v with
  | null => exact .null
  | bool b => exact .bool b
  | number n => exact .number (same n)
  | text s => exact .text s
  | list items => exact .list items items
  | object fields => exact .object fields fields

theorem Agree.symm (back : ∀ m n, numbers m n → others n m) (h : Agree numbers v w) :
    Agree others w v := by
  cases h with
  | null => exact .null
  | bool b => exact .bool b
  | number related => exact .number (back _ _ related)
  | text s => exact .text s
  | list xs ys => exact .list ys xs
  | object fs gs => exact .object gs fs

namespace Corresponds

theorem agree (h : v.Corresponds numbers w) : Agree numbers v w := by
  obtain ⟨agree⟩ := h []
  exact agree

/-- The parts that a step leads to correspond as well. -/
theorem child (h : v.Corresponds numbers w) (step : Step) :
    Option.Rel (Corresponds numbers) (v.child? step) (w.child? step) := by
  have beyond : ∀ rest, Option.Rel (Agree numbers) ((v.child? step).bind (at? · rest))
      ((w.child? step).bind (at? · rest)) := fun rest => h (step :: rest)
  generalize v.child? step = x at beyond ⊢
  generalize w.child? step = y at beyond ⊢
  cases x with
  | none =>
    cases y with
    | none => exact .none
    | some y => nomatch beyond []
  | some x =>
    cases y with
    | none => nomatch beyond []
    | some y => exact .some beyond

/-- It is enough that the numbers at each place stay related. -/
theorem imp (h : v.Corresponds numbers w)
    (imp : ∀ place m n, v.at? place = some (number m) → w.at? place = some (number n) →
      numbers m n → others m n) : v.Corresponds others w := by
  intro place
  have rel := h place
  have imp := imp place
  generalize v.at? place = x at rel imp ⊢
  generalize w.at? place = y at rel imp ⊢
  cases rel with
  | none => exact .none
  | some agree =>
    refine .some (agree.imp ?_)
    rintro m n rfl rfl
    exact imp m n rfl rfl

theorem numbers_at (h : v.Corresponds numbers w) {place : List Step} {m n : Number}
    (left : v.at? place = some (number m)) (right : w.at? place = some (number n)) :
    numbers m n := by
  have rel := h place
  rw [left, right] at rel
  cases Option.rel_some_some.mp rel with
  | number related => exact related

theorem refl (same : ∀ n, numbers n n) (v : Value) : v.Corresponds numbers v := by
  intro place
  cases v.at? place with
  | none => exact .none
  | some x => exact .some (.refl same x)

theorem symm (back : ∀ m n, numbers m n → others n m) (h : v.Corresponds numbers w) :
    w.Corresponds others v := by
  intro place
  have rel := h place
  generalize v.at? place = x at rel ⊢
  generalize w.at? place = y at rel ⊢
  cases rel with
  | none => exact .none
  | some agree => exact .some (agree.symm back)

end Corresponds

theorem corresponds_iff : v.Corresponds numbers w ↔ Agree numbers v w ∧
    ∀ step, Option.Rel (Corresponds numbers) (v.child? step) (w.child? step) := by
  refine ⟨fun h => ⟨h.agree, h.child⟩, ?_⟩
  rintro ⟨agree, parts⟩ place
  cases place with
  | nil => exact .some agree
  | cons step rest =>
    have rel := parts step
    rw [at?, at?]
    generalize v.child? step = x at rel ⊢
    generalize w.child? step = y at rel ⊢
    cases rel with
    | none => exact .none
    | some rel => exact rel rest

/-! ### Sameness -/

theorem forall₂_iff_rel {related : Value → Value → Prop} {xs ys : List Value} :
    List.Forall₂ related xs ys ↔ ∀ index : Nat, Option.Rel related xs[index]? ys[index]? := by
  induction xs generalizing ys with
  | nil =>
    cases ys with
    | nil => simp
    | cons y ys => exact ⟨nofun, fun h => nomatch h 0⟩
  | cons x xs ih =>
    cases ys with
    | nil => exact ⟨nofun, fun h => nomatch h 0⟩
    | cons y ys =>
      rw [List.forall₂_cons, ih]
      refine ⟨fun ⟨first, rest⟩ index => ?_,
        fun rel => ⟨Option.rel_some_some.mp (rel 0), fun index => rel (index + 1)⟩⟩
      cases index with
      | zero => exact .some first
      | succ index => exact rest index

/-- Objects with distinct keys have fields that are related one by one when they have as many, and
each field of the first has a counterpart. -/
theorem fields_iff_rel (related : Value → Value → Prop) {fs gs : Document}
    (hf : fs.keys.Nodup) (hg : gs.keys.Nodup) : (fs.length = gs.length ∧
      ∀ entry ∈ fs, ∃ y, gs.lookup entry.1 = some y ∧ related entry.2 y) ↔
    ∀ key, Option.Rel related (fs.get? key) (gs.get? key) := by
  constructor
  · rintro ⟨length, fields⟩ key
    have subset : fs.keys ⊆ gs.keys := by
      intro key mem
      obtain ⟨entry, field, rfl⟩ := List.mem_map.mp mem
      obtain ⟨y, found, -⟩ := fields entry field
      exact List.mem_map.mpr ⟨_, Document.mem_of_get? found, rfl⟩
    have perm : fs.keys.Perm gs.keys :=
      (hf.subperm subset).perm_of_length_le (by simp [Document.keys, length])
    cases left : fs.get? key with
    | none =>
      rw [Document.get?_eq_none_iff, perm.mem_iff, ← Document.get?_eq_none_iff] at left
      rw [left]
      exact .none
    | some x =>
      obtain ⟨y, found, rel⟩ := fields (key, x) (Document.mem_of_get? left)
      rw [Document.get?, found]
      exact .some rel
  · intro parts
    have keys (key : String) : key ∈ fs.keys ↔ key ∈ gs.keys := by
      have rel := parts key
      rw [← not_iff_not, ← Document.get?_eq_none_iff, ← Document.get?_eq_none_iff]
      generalize fs.get? key = x at rel ⊢
      generalize gs.get? key = y at rel ⊢
      cases rel <;> simp
    refine ⟨by simpa [Document.keys] using ((List.perm_ext_iff_of_nodup hf hg).mpr keys).length_eq,
      fun entry mem => ?_⟩
    have rel := parts entry.1
    rw [Document.get?_of_mem hf mem] at rel
    generalize found : gs.get? entry.1 = y at rel
    cases rel with
    | some rel => exact ⟨_, found, rel⟩

theorem agree_of_same (h : v.same w) : Agree (fun m n => m.same n) v w := by
  cases counterparts_of_same h with
  | refl => exact .refl Number.same_refl v
  | numbers same => exact .number same
  | lists => exact .list _ _
  | objects fs gs => exact .object fs gs

theorem same_iff_children (hv : v.HasDistinctKeys) (hw : w.HasDistinctKeys) : v.same w ↔
    Agree (fun m n => m.same n) v w ∧
      ∀ step, Option.Rel (fun x y => x.same y) (v.child? step) (w.child? step) := by
  rw [← and_iff_right_of_imp (agree_of_same (v := v) (w := w))]
  refine and_congr_right fun agree => ?_
  cases agree with
  | null | bool | text => simp [same, child?]
  | number related => simpa [same, child?] using related
  | list xs ys =>
    rw [same, sameItems_iff, forall₂_iff_rel]
    refine ⟨fun parts step => ?_, fun parts index => parts (.item index)⟩
    cases step with
    | item index => exact parts index
    | field key => exact .none
  | object fs gs =>
    rw [same, Bool.and_eq_true, beq_iff_eq, sameFields_iff]
    rw [fields_iff_rel (fun x y => x.same y) hv.keys hw.keys]
    refine ⟨fun parts step => ?_, fun parts key => parts (.field key)⟩
    cases step with
    | item index => exact .none
    | field key => exact parts key

/-- Values with distinct keys are the same when they correspond. -/
theorem same_iff_corresponds (hv : v.HasDistinctKeys) (hw : w.HasDistinctKeys) :
    v.same w ↔ v.Corresponds (fun m n => m.same n) w := by
  induction v using child_induction generalizing w with
  | parts v ih =>
    rw [same_iff_children hv hw, corresponds_iff]
    refine and_congr_right' (forall_congr' fun step => ?_)
    cases left : v.child? step with
    | none => cases w.child? step <;> simp
    | some x =>
      cases right : w.child? step with
      | none => simp
      | some y =>
        rw [Option.rel_some_some, Option.rel_some_some]
        exact ih step x left (hv.child left) (hw.child right)

theorem same_self (distinct : v.HasDistinctKeys) : v.same v :=
  (same_iff_corresponds distinct distinct).mpr (.refl Number.same_refl v)

theorem same_comm (hv : v.HasDistinctKeys) (hw : w.HasDistinctKeys) : v.same w = w.same v := by
  rw [Bool.eq_iff_iff, same_iff_corresponds hv hw, same_iff_corresponds hw hv]
  have back (m n : Number) (h : m.same n) : n.same m := by rwa [Number.same_comm]
  exact ⟨.symm back, .symm back⟩

end Value

end AccessRules

import AccessRules.Value
import Mathlib.Data.List.Forall2

/-! Values that are written alike. Sameness is transitive at every depth, whatever the order of the
fields of an object, and values that are the same both ways are interchangeable: on the left of an
equality, of an order and in a list they give one answer. Objects may have a key twice, in which
case the later field is out of reach and sameness is neither reflexive nor symmetric. -/

namespace AccessRules

/-! ### Numbers -/

namespace Number

variable {m n : Number}

/-- The same number is written twice, or two doubles have one value. -/
theorem eq_or_units_eq_of_same (h : m.same n) :
    m = n ∨ ∃ x y, m = .real x ∧ n = .real y ∧ x.units = y.units := by
  cases m with
  | int a =>
    cases n with
    | int b =>
      have val : a.val = b.val := by simpa [same] using h
      obtain ⟨_, _, _⟩ := a
      obtain ⟨_, _, _⟩ := b
      exact .inl (by simp_all)
    | real y => simp [same] at h
  | real x =>
    cases n with
    | int b => simp [same] at h
    | real y => exact .inr ⟨x, y, rfl, rfl, by simpa [same, Double.equal] using h⟩

theorem same_congr (h : m.same n) (k : Number) : m.same k = n.same k := by
  rcases eq_or_units_eq_of_same h with rfl | ⟨x, y, rfl, rfl, units⟩
  · rfl
  · cases k <;> simp [same, Double.equal, units]

theorem equal_congr (h : m.same n) (k : Number) : m.equal k = n.equal k := by
  rcases eq_or_units_eq_of_same h with rfl | ⟨x, y, rfl, rfl, units⟩
  · rfl
  · cases k <;> simp [equal, toDouble, Double.equal, units]

theorem compare_congr (h : m.same n) (k : Number) : m.compare k = n.compare k := by
  rcases eq_or_units_eq_of_same h with rfl | ⟨x, y, rfl, rfl, units⟩
  · rfl
  · simp [compare, toDouble, Double.compare, units]

end Number

namespace Value

/-- What holds of every value without parts, and of a list or an object when it holds of its parts,
holds of every value. -/
@[induction_eliminator] theorem induction {motive : Value → Prop}
    (null : motive .null) (bool : ∀ b, motive (.bool b)) (number : ∀ n, motive (.number n))
    (text : ∀ s, motive (.text s))
    (list : ∀ items, (∀ v ∈ items, motive v) → motive (.list items))
    (object : ∀ fields, (∀ entry ∈ fields, motive entry.2) → motive (.object fields))
    (v : Value) : motive v :=
  v.rec (motive_2 := fun items => ∀ w ∈ items, motive w)
    (motive_3 := fun fields => ∀ entry ∈ fields, motive entry.2)
    (motive_4 := fun entry => motive entry.2)
    null bool number text list object
    (by simp) (fun _ _ head tail => List.forall_mem_cons.mpr ⟨head, tail⟩)
    (by simp) (fun _ _ head tail => List.forall_mem_cons.mpr ⟨head, tail⟩)
    (fun _ _ value => value)

/-! ### What each kind of value is the same as -/

theorem same_null_iff {w : Value} : null.same w ↔ w = null := by
  cases w <;> simp [same]

theorem same_bool_iff {b : Bool} {w : Value} : (bool b).same w ↔ w = bool b := by
  cases w <;> simp [same, @eq_comm _ b]

theorem same_text_iff {s : String} {w : Value} : (text s).same w ↔ w = text s := by
  cases w <;> simp [same, @eq_comm _ s]

theorem same_number_iff {m : Number} {w : Value} :
    (number m).same w ↔ ∃ n, w = number n ∧ m.same n := by
  cases w <;> simp [same]

theorem sameItems_iff {xs ys : List Value} :
    sameItems xs ys ↔ List.Forall₂ (fun x y => x.same y) xs ys := by
  induction xs generalizing ys with
  | nil => cases ys <;> simp [sameItems]
  | cons x xs ih => cases ys <;> simp [sameItems, ih]

theorem same_list_iff {xs : List Value} {w : Value} :
    (list xs).same w ↔ ∃ ys, w = list ys ∧ List.Forall₂ (fun x y => x.same y) xs ys := by
  cases w <;> simp [same, sameItems_iff]

theorem sameFields_iff {fs gs : Document} :
    sameFields fs gs ↔ ∀ entry ∈ fs, ∃ y, gs.lookup entry.1 = some y ∧ entry.2.same y := by
  induction fs with
  | nil => simp [sameFields]
  | cons entry fs ih =>
    rw [sameFields, Bool.and_eq_true, ih, List.forall_mem_cons]
    refine and_congr_left' ?_
    cases gs.lookup entry.1 <;> simp

theorem same_object_iff {fs : Document} {w : Value} :
    (object fs).same w ↔ ∃ gs, w = object gs ∧ fs.length = gs.length ∧
      ∀ entry ∈ fs, ∃ y, gs.lookup entry.1 = some y ∧ entry.2.same y := by
  cases w <;> simp [same, sameFields_iff]

/-! ### Transitivity -/

/-- The induction is on the first value. A field of it has its middle value under the same key of
the second object, and that one is again among the fields that the third object answers. -/
theorem same_trans {u v w : Value} (h : u.same v) (h' : v.same w) : u.same w := by
  induction u generalizing v w with
  | null => rwa [same_null_iff.mp h] at h'
  | bool b => rwa [same_bool_iff.mp h] at h'
  | text s => rwa [same_text_iff.mp h] at h'
  | number m =>
    obtain ⟨n, rfl, left⟩ := same_number_iff.mp h
    obtain ⟨k, rfl, right⟩ := same_number_iff.mp h'
    rw [same_number_iff]
    exact ⟨k, rfl, by rwa [Number.same_congr left]⟩
  | list xs ih =>
    obtain ⟨ys, rfl, left⟩ := same_list_iff.mp h
    obtain ⟨zs, rfl, right⟩ := same_list_iff.mp h'
    clear h h'
    refine same_list_iff.mpr ⟨zs, rfl, ?_⟩
    induction left generalizing zs with
    | nil => exact right
    | cons head _ tail =>
      obtain ⟨z, zs, head', tail', rfl⟩ := List.forall₂_cons_left_iff.mp right
      obtain ⟨ih, ihs⟩ := List.forall_mem_cons.mp ih
      exact .cons (ih head head') (tail ihs zs tail')
  | object fs ih =>
    obtain ⟨gs, rfl, length, left⟩ := same_object_iff.mp h
    obtain ⟨hs, rfl, length', right⟩ := same_object_iff.mp h'
    refine same_object_iff.mpr ⟨hs, rfl, length.trans length', fun entry mem => ?_⟩
    obtain ⟨y, found, same⟩ := left entry mem
    obtain ⟨before, after, rfl, -⟩ := List.lookup_eq_some_iff.mp found
    obtain ⟨z, found', same'⟩ := right (entry.1, y) List.mem_append_cons_self
    exact ⟨z, found', ih entry mem same same'⟩

/-! ### Interchange -/

/-- Two values are one, or both are numbers, lists or objects. -/
inductive Counterparts : Value → Value → Prop where
  | refl (v : Value) : Counterparts v v
  | numbers {m n : Number} (same : m.same n) : Counterparts (number m) (number n)
  | lists {xs ys : List Value} (items : List.Forall₂ (fun x y => x.same y) xs ys) :
      Counterparts (list xs) (list ys)
  | objects (fs gs : Document) : Counterparts (object fs) (object gs)

variable {v w : Value}

theorem counterparts_of_same (h : v.same w) : Counterparts v w := by
  cases v with
  | null => rw [same_null_iff.mp h]; exact .refl null
  | bool b => rw [same_bool_iff.mp h]; exact .refl (bool b)
  | text s => rw [same_text_iff.mp h]; exact .refl (text s)
  | number m =>
    obtain ⟨n, rfl, same⟩ := same_number_iff.mp h
    exact .numbers same
  | list xs =>
    obtain ⟨ys, rfl, items⟩ := same_list_iff.mp h
    exact .lists items
  | object fs =>
    obtain ⟨gs, rfl, -⟩ := same_object_iff.mp h
    exact .objects fs gs

theorem isNull_congr (h : v.same w) : v.isNull = w.isNull := by
  cases counterparts_of_same h <;> rfl

theorem compare?_congr (h : v.same w) (bound : Value) : v.compare? bound = w.compare? bound := by
  cases counterparts_of_same h with
  | refl => rfl
  | numbers same =>
    cases bound with
    | number k => exact congrArg some (Number.compare_congr same k)
    | _ => rfl
  | lists => rfl
  | objects => rfl

theorem same_congr (h : v.same w) (h' : w.same v) (expected : Value) :
    v.same expected = w.same expected :=
  Bool.eq_iff_iff.mpr ⟨same_trans h', same_trans h⟩

theorem equal_congr (h : v.same w) (h' : w.same v) (expected : Value) :
    v.equal expected = w.equal expected := by
  cases counterparts_of_same h with
  | refl => rfl
  | numbers same =>
    cases expected with
    | number k => exact Number.equal_congr same k
    | _ => rfl
  | lists => exact same_congr h h' expected
  | objects => exact same_congr h h' expected

theorem any_equal_congr {xs ys : List Value} (h : List.Forall₂ (fun x y => x.same y) xs ys)
    (h' : List.Forall₂ (fun y x => y.same x) ys xs) (expected : Value) :
    xs.any (equal · expected) = ys.any (equal · expected) := by
  induction h with
  | nil => rfl
  | cons head _ tail =>
    obtain ⟨head', tail'⟩ := List.forall₂_cons.mp h'
    rw [List.any_cons, List.any_cons, equal_congr head head', tail tail']

end Value

end AccessRules

import AccessRules.Formula
import AccessRules.Proofs.Number.Exactness
import AccessRules.Proofs.Value.Places

/-! Equality by value. An integer and a double are equal when the double is the one that the integer
is rounded to, so numbers of one value are equal, and the only other equal pairs are an integer that
is no double and the double nearest to it. Equal values correspond place by place with such numbers,
and values that correspond are equal as long as numbers below the top stand against numbers of their
own kind. Equality is reflexive and symmetric, and only a double between two integers that are
rounded to it stops it from being transitive. Tests of equality do not tell two ways of writing one
value apart, unless they ask for an integer that is rounded to that value. -/

namespace AccessRules

/-! ### Numbers -/

/-- A double that has the value of an integer is the one that the integer is rounded to. -/
theorem WordInt.value_toDouble_of_eq {k : WordInt} {x : Double} (equal : (k.val : ℚ) = x.value) :
    k.toDouble.value = x.value := by
  rw [value_toDouble_iff.mpr ⟨x, equal.symm⟩, equal]

namespace Number

/-- Both are integers, or both are doubles. -/
def OneKind : Number → Number → Prop
  | int _, int _ | real _, real _ => True
  | int _, real _ | real _, int _ => False

/-- Two numbers have one value, or one is an integer that is no double and the other one is the
double that it is rounded to. -/
inductive Coincide : Number → Number → Prop where
  | value {m n : Number} (equal : m.value = n.value) : Coincide m n
  | rounded_left {k : WordInt} {x : Double} (inexact : ¬k.IsExact)
      (nearest : k.toDouble.value = x.value) : Coincide (int k) (real x)
  | rounded_right {k : WordInt} {x : Double} (inexact : ¬k.IsExact)
      (nearest : k.toDouble.value = x.value) : Coincide (real x) (int k)

/-- An integer that is no double is rounded to two numbers that are not of one kind. -/
def Separates (k m n : Number) : Prop :=
  ¬m.OneKind n ∧ ∃ i : WordInt, k = int i ∧ ¬i.IsExact ∧ i.toDouble.value = m.value

variable {m n k : Number}

theorem same_iff : m.same n ↔ m.OneKind n ∧ m.value = n.value := by
  cases m <;> cases n <;> simp [same, OneKind, value, Double.equal, Double.value_eq_iff]

theorem coincide_iff_of_oneKind (kind : m.OneKind n) : m.Coincide n ↔ m.value = n.value := by
  refine ⟨fun h => ?_, .value⟩
  cases h with
  | value equal => exact equal
  | rounded_left | rounded_right => exact kind.elim

theorem equal_comm (m n : Number) : m.equal n = n.equal m := by
  cases m <;> cases n <;> simp [equal, Double.equal, Bool.beq_comm]

theorem equal_iff_of_oneKind (kind : m.OneKind n) : m.equal n ↔ m.value = n.value := by
  cases m with
  | int i =>
    cases n with
    | int j => simp [equal, value]
    | real y => exact kind.elim
  | real x =>
    cases n with
    | int j => exact kind.elim
    | real y => simp [equal, value, toDouble, Double.equal, Double.value_eq_iff]

theorem oneKind_comm : m.OneKind n ↔ n.OneKind m := by
  cases m <;> cases n <;> rfl

theorem oneKind_or (m n : Number) : m.OneKind n ∨ (∃ i x, m = int i ∧ n = real x) ∨
    ∃ x i, m = real x ∧ n = int i := by
  cases m <;> cases n <;> simp [OneKind]

theorem int_equal_real_iff {i : WordInt} {x : Double} :
    (int i).equal (real x) ↔ i.toDouble.value = x.value := by
  simp [equal, toDouble, Double.equal, Double.value_eq_iff]

theorem Coincide.symm (h : m.Coincide n) : n.Coincide m := by
  cases h with
  | value equal => exact .value equal.symm
  | rounded_left inexact nearest => exact .rounded_right inexact nearest
  | rounded_right inexact nearest => exact .rounded_left inexact nearest

theorem coincide_int_real_iff {i : WordInt} {x : Double} :
    (int i).Coincide (real x) ↔ i.toDouble.value = x.value := by
  constructor
  · intro h
    cases h with
    | value equal => exact WordInt.value_toDouble_of_eq equal
    | rounded_left _ nearest => exact nearest
  · intro nearest
    by_cases exact : i.IsExact
    · exact .value ((WordInt.value_toDouble_iff.mpr exact).symm.trans nearest)
    · exact .rounded_left exact nearest

theorem equal_iff_coincide : m.equal n ↔ m.Coincide n := by
  rcases m.oneKind_or n with kind | ⟨i, x, rfl, rfl⟩ | ⟨x, i, rfl, rfl⟩
  · rw [equal_iff_of_oneKind kind, coincide_iff_of_oneKind kind]
  · rw [int_equal_real_iff, coincide_int_real_iff]
  · rw [equal_comm, int_equal_real_iff, ← coincide_int_real_iff]
    exact ⟨.symm, .symm⟩

theorem int_equal_eq_real_equal_iff {i : WordInt} {x : Double} (equal : (i.val : ℚ) = x.value) :
    (int i).equal k = (real x).equal k ↔ ¬k.Separates (int i) (real x) := by
  have nearest := WordInt.value_toDouble_of_eq equal
  cases k with
  | int j =>
    have left : (int i).equal (int j) ↔ (i.val : ℚ) = j.val := equal_iff_of_oneKind trivial
    have right : (real x).equal (int j) ↔ j.toDouble.value = x.value := by
      rw [equal_comm, int_equal_real_iff]
    have separates : (int j).Separates (int i) (real x) ↔
        ¬j.IsExact ∧ j.toDouble.value = x.value := by
      simp [Separates, OneKind, value, equal]
    rw [Bool.eq_iff_iff, left, right, separates]
    by_cases exact : j.IsExact
    · rw [WordInt.value_toDouble_iff.mpr exact, equal]
      exact iff_of_true eq_comm fun h => h.1 exact
    · have apart : (i.val : ℚ) ≠ j.val := fun eq => exact ⟨x, equal.symm.trans eq⟩
      simp [apart, exact]
  | real y =>
    have right : (real x).equal (real y) ↔ x.value = y.value := equal_iff_of_oneKind trivial
    rw [Bool.eq_iff_iff, int_equal_real_iff, right, nearest]
    exact iff_of_true .rfl (by rintro ⟨-, j, ⟨⟩, -⟩)

/-- Two numbers of one value are equal to the same numbers, but for those that separate them. -/
theorem equal_eq_iff (equal : m.value = n.value) :
    m.equal k = n.equal k ↔ ¬k.Separates m n := by
  rcases m.oneKind_or n with kind | ⟨i, x, rfl, rfl⟩ | ⟨x, i, rfl, rfl⟩
  · exact iff_of_true (equal_congr (same_iff.mpr ⟨kind, equal⟩) k) fun h => h.1 kind
  · exact int_equal_eq_real_equal_iff equal
  · rw [eq_comm, int_equal_eq_real_equal_iff equal.symm, Separates, Separates, equal,
      oneKind_comm]

theorem same_of_equal (kind : m.OneKind n) (h : m.equal n) : m.same n :=
  same_iff.mpr ⟨kind, (equal_iff_of_oneKind kind).mp h⟩

/-- Equality passes on through a third number, unless that is a double between two integers. -/
theorem equal_trans_iff (h : m.equal n) (h' : n.equal k) :
    m.equal k ↔ ∀ a x b, m = int a → n = real x → k = int b → a = b := by
  have on_the_right (kind : n.OneKind k) : m.equal k := by
    rwa [equal_comm, ← equal_congr (same_of_equal kind h'), equal_comm]
  rcases m.oneKind_or n with kind | ⟨i, x, rfl, rfl⟩ | ⟨x, i, rfl, rfl⟩
  · refine iff_of_true (by rwa [equal_congr (same_of_equal kind h)]) ?_
    rintro a x b rfl rfl rfl
    exact kind.elim
  · cases k with
    | int j => simp [equal, WordInt.val_inj]
    | real y => exact iff_of_true (on_the_right trivial) (by rintro a x b - - ⟨⟩)
  · refine iff_of_true ?_ (by rintro a x b ⟨⟩)
    cases k with
    | int j => exact on_the_right trivial
    | real y =>
      rw [equal_comm, int_equal_real_iff] at h
      rw [int_equal_real_iff] at h'
      have kind : (real x).OneKind (real y) := trivial
      exact (equal_iff_of_oneKind kind).mpr (h.symm.trans h')

end Number

namespace Value

variable {u v w : Value}

/-! ### Values -/

/-- Below the top, numbers that stand at one place of both values are of one kind. -/
def OneKindInside (v w : Value) : Prop :=
  ∀ place m n, place ≠ [] → v.at? place = some (number m) → w.at? place = some (number n) →
    m.OneKind n

/-- Below the top, numbers that stand at one place of both values have one value. -/
def OneValueInside (v w : Value) : Prop :=
  ∀ place m n, place ≠ [] → v.at? place = some (number m) → w.at? place = some (number n) →
    m.value = n.value

theorem equal_number_iff {m : Number} : (number m).equal w ↔ ∃ n, w = number n ∧ m.equal n := by
  cases w <;> simp [equal, same]

theorem equal_eq_same (structured : ∀ m, v ≠ number m) : v.equal w = v.same w := by
  cases v with
  | number m => exact absurd rfl (structured m)
  | _ => rfl

theorem corresponds_number_iff {numbers : Number → Number → Prop} {m : Number} :
    (number m).Corresponds numbers w ↔ ∃ n, w = number n ∧ numbers m n := by
  constructor
  · intro h
    cases h.agree with
    | number related => exact ⟨_, rfl, related⟩
  · rintro ⟨n, rfl, related⟩
    exact corresponds_iff.mpr ⟨.number related, fun step => .none⟩

theorem same_iff_of_oneKindInside {numbers : Number → Number → Prop} (hv : v.HasDistinctKeys)
    (hw : w.HasDistinctKeys) (inside : v.OneKindInside w) (structured : ∀ m, v ≠ number m)
    (by_value : ∀ m n : Number, m.OneKind n → (numbers m n ↔ m.value = n.value)) :
    v.same w ↔ v.Corresponds numbers w := by
  rw [same_iff_corresponds hv hw]
  constructor
  · refine fun h => h.imp fun place m n _ _ same => ?_
    obtain ⟨kind, equal⟩ := Number.same_iff.mp same
    exact (by_value m n kind).mpr equal
  · refine fun h => h.imp fun place m n left right related => ?_
    have below : place ≠ [] := by
      rintro rfl
      exact structured m (Option.some.inj left)
    have kind := inside place m n below left right
    exact Number.same_iff.mpr ⟨kind, (by_value m n kind).mp related⟩

theorem number_equal_iff_corresponds {m : Number} :
    (number m).equal w ↔ (number m).Corresponds Number.Coincide w := by
  simp only [equal_number_iff, corresponds_number_iff, Number.equal_iff_coincide]

theorem corresponds_of_equal (hv : v.HasDistinctKeys) (hw : w.HasDistinctKeys) (h : v.equal w) :
    v.Corresponds Number.Coincide w := by
  by_cases structured : ∀ m, v ≠ number m
  · rw [equal_eq_same structured, same_iff_corresponds hv hw] at h
    exact h.imp fun place m n _ _ same => .value (Number.same_iff.mp same).2
  · obtain ⟨m, rfl⟩ := not_forall_not.mp structured
    exact number_equal_iff_corresponds.mp h

theorem oneValueInside_of_equal (hv : v.HasDistinctKeys) (hw : w.HasDistinctKeys)
    (h : v.equal w) : v.OneValueInside w := by
  intro place m n below left right
  by_cases structured : ∀ m, v ≠ number m
  · rw [equal_eq_same structured, same_iff_corresponds hv hw] at h
    exact (Number.same_iff.mp (h.numbers_at left right)).2
  · obtain ⟨k, rfl⟩ := not_forall_not.mp structured
    cases place with
    | nil => contradiction
    | cons step rest => cases left

theorem equal_of_corresponds (hv : v.HasDistinctKeys) (hw : w.HasDistinctKeys)
    (inside : v.OneKindInside w) (h : v.Corresponds Number.Coincide w) : v.equal w := by
  by_cases structured : ∀ m, v ≠ number m
  · rw [equal_eq_same structured]
    exact (same_iff_of_oneKindInside hv hw inside structured
      fun m n => Number.coincide_iff_of_oneKind).mpr h
  · obtain ⟨m, rfl⟩ := not_forall_not.mp structured
    exact number_equal_iff_corresponds.mpr h

theorem equal_self (distinct : v.HasDistinctKeys) : v.equal v := by
  cases v with
  | number m => exact Number.equal_iff_coincide.mpr (.value rfl)
  | _ => exact same_self distinct

theorem equal_comm (hv : v.HasDistinctKeys) (hw : w.HasDistinctKeys) : v.equal w = w.equal v := by
  cases v with
  | number m =>
    cases w with
    | number n => exact Number.equal_comm m n
    | _ => rfl
  | _ =>
    cases w with
    | number n => rfl
    | _ => exact same_comm hv hw

theorem equal_trans_iff (h : u.equal v) (h' : v.equal w) : u.equal w ↔
    ∀ a x b, u = number (.int a) → v = number (.real x) → w = number (.int b) → a = b := by
  by_cases structured : ∀ m, u ≠ number m
  · rw [equal_eq_same structured] at h ⊢
    have structured' : ∀ n, v ≠ number n := by
      rintro n rfl
      cases u with
      | number m => exact structured m rfl
      | _ => cases h
    rw [equal_eq_same structured'] at h'
    exact iff_of_true (same_trans h h') fun a _ _ left => absurd left (structured (.int a))
  · obtain ⟨m, rfl⟩ := not_forall_not.mp structured
    obtain ⟨n, rfl, left⟩ := equal_number_iff.mp h
    obtain ⟨k, rfl, right⟩ := equal_number_iff.mp h'
    simpa only [equal, number.injEq] using Number.equal_trans_iff left right

/-! ### Tests -/

/-- What is compared with an expected value: a value, or its items if it is a list and no list is
expected. -/
def compared : Value → Value → List Value
  | list items, list _ => [list items]
  | list items, _ => items
  | v, _ => [v]

/-- Two ways of writing a value have numbers of one kind below the top, and at the top the expected
number does not separate them. -/
def Interchangeable (expected v w : Value) : Prop :=
  v.OneKindInside w ∧ ∀ k m n, expected = number k → v = number m → w = number n →
    ¬k.Separates m n

theorem meets_some (v expected : Value) :
    meets (some v) expected = (v.compared expected).any (equal · expected) := by
  cases v with
  | null => cases expected <;> rfl
  | list items => cases expected <;> simp [meets, compared]
  | _ => simp [meets, compared]

theorem equal_eq_of_interchangeable {expected : Value} (hv : v.HasDistinctKeys)
    (hw : w.HasDistinctKeys) (h : v.Corresponds (fun m n => m.value = n.value) w)
    (inter : Interchangeable expected v w) : v.equal expected = w.equal expected := by
  by_cases structured : ∀ m, v ≠ number m
  · have same : v.same w :=
      (same_iff_of_oneKindInside hv hw inter.1 structured fun _ _ _ => .rfl).mpr h
    exact equal_congr same (by rwa [← same_comm hv hw]) expected
  · obtain ⟨m, rfl⟩ := not_forall_not.mp structured
    obtain ⟨n, rfl, equal⟩ := corresponds_number_iff.mp h
    cases expected with
    | number k => exact (Number.equal_eq_iff equal).mpr (inter.2 k m n rfl rfl rfl)
    | _ => rfl

theorem forall₂_compared {numbers : Number → Number → Prop} (h : v.Corresponds numbers w)
    (expected : Value) :
    List.Forall₂ (Corresponds numbers) (v.compared expected) (w.compared expected) := by
  cases h.agree with
  | list xs ys =>
    cases expected with
    | list zs => exact .cons h .nil
    | _ => exact forall₂_iff_rel.mpr fun index => h.child (.item index)
  | _ => exact .cons h .nil

theorem compared_hasDistinctKeys (h : v.HasDistinctKeys) (expected : Value) :
    ∀ x ∈ v.compared expected, x.HasDistinctKeys := by
  cases v with
  | list items =>
    cases expected with
    | list zs => exact List.forall_mem_singleton.mpr h
    | _ =>
      cases h with
      | list parts => exact parts
  | _ => exact List.forall_mem_singleton.mpr h

theorem meets_some_eq {expected : Value} (hv : v.HasDistinctKeys)
    (hw : w.HasDistinctKeys) (h : v.Corresponds (fun m n => m.value = n.value) w)
    (inter : List.Forall₂ (Interchangeable expected) (v.compared expected) (w.compared expected)) :
    meets (some v) expected = meets (some w) expected := by
  rw [meets_some, meets_some]
  have items := forall₂_compared h expected
  have distinct := compared_hasDistinctKeys hv expected
  have distinct' := compared_hasDistinctKeys hw expected
  generalize v.compared expected = xs at inter items distinct
  generalize w.compared expected = ys at inter items distinct'
  induction items with
  | nil => rfl
  | cons head _ tail =>
    obtain ⟨first, rest⟩ := List.forall₂_cons.mp inter
    obtain ⟨hx, hxs⟩ := List.forall_mem_cons.mp distinct
    obtain ⟨hy, hys⟩ := List.forall_mem_cons.mp distinct'
    rw [List.any_cons, List.any_cons, equal_eq_of_interchangeable hx hy head first,
      tail hxs rest hys]

end Value

/-- The values that a test of equality asks for. -/
def Test.expected? : Test → Option (List Value)
  | equals v | differs v => some [v]
  | oneOf items | noneOf items => some items
  | _ => none

theorem Test.holds_eq_of_meets {test : Test} {items : List Value} {v w : Option Value}
    (asks : test.expected? = some items)
    (meets : ∀ item ∈ items, Value.meets v item = Value.meets w item) :
    test.holds v = test.holds w := by
  have any : items.any (Value.meets v) = items.any (Value.meets w) := by
    rw [Bool.eq_iff_iff, List.any_eq_true, List.any_eq_true]
    exact exists_congr fun item => and_congr_right fun mem => by rw [meets item mem]
  cases test with
  | equals e | differs e =>
    obtain rfl := Option.some.inj asks
    simpa [holds] using any
  | oneOf es | noneOf es =>
    obtain rfl := Option.some.inj asks
    simpa [holds] using any
  | _ => cases asks

namespace Value

variable {u v w : Value}

/-- Values that are equal, and whose objects have distinct keys as all that are read do, correspond
with numbers that coincide, and below the top with numbers of one value. Values that so correspond
are equal where their numbers below the top are of one kind. Equality is reflexive and symmetric,
and transitive but for a double between two integers. Its tests do not tell two ways of writing one
value apart, where what they compare is interchangeable. -/
theorem equality_by_value (hv : v.HasDistinctKeys) (hw : w.HasDistinctKeys) :
    (v.equal w → v.Corresponds Number.Coincide w ∧ v.OneValueInside w) ∧
    (v.OneKindInside w → v.Corresponds Number.Coincide w → v.equal w) ∧
    v.equal v ∧ v.equal w = w.equal v ∧
    (u.equal v → v.equal w → (u.equal w ↔ ∀ a x b,
      u = number (.int a) → v = number (.real x) → w = number (.int b) → a = b)) ∧
    (v.Corresponds (fun m n => m.value = n.value) w →
      ∀ (test : Test) (items : List Value), test.expected? = some items →
        (∀ item ∈ items,
          List.Forall₂ (Interchangeable item) (v.compared item) (w.compared item)) →
        test.holds (some v) = test.holds (some w)) := by
  refine ⟨fun equal => ⟨corresponds_of_equal hv hw equal, oneValueInside_of_equal hv hw equal⟩,
    equal_of_corresponds hv hw, equal_self hv, equal_comm hv hw, equal_trans_iff, ?_⟩
  intro written test items asks inter
  exact Test.holds_eq_of_meets asks fun item mem => meets_some_eq hv hw written (inter item mem)

theorem oneKindInside_of_same (hv : v.HasDistinctKeys) (hw : w.HasDistinctKeys) (h : v.same w) :
    v.OneKindInside w := by
  intro place m n _ left right
  exact (Number.same_iff.mp (((same_iff_corresponds hv hw).mp h).numbers_at left right)).1

theorem equality_by_value_reordered :
    let one : Value := number (.int ⟨1, by decide, by decide⟩)
    let v : Value := object [("n", one), ("tags", list [text "x"])]
    let w : Value := object [("tags", list [text "x"]), ("n", one)]
    v.Corresponds Number.Coincide w ∧ w.equal w ∧
      (Test.oneOf [null, v]).holds (some v) = (Test.oneOf [null, v]).holds (some w) := by
  intro one v w
  have tags : (list [text "x"]).HasDistinctKeys := .list (by simp [HasDistinctKeys.text])
  have hv : v.HasDistinctKeys :=
    .object (by decide) (List.forall_mem_cons.mpr ⟨.number _, by simpa using tags⟩)
  have hw : w.HasDistinctKeys :=
    .object (by decide) (List.forall_mem_cons.mpr ⟨tags, by simpa using .number _⟩)
  have same : v.same w := by decide
  have inside := oneKindInside_of_same hv hw same
  have written : v.Corresponds (fun m n => m.value = n.value) w :=
    ((same_iff_corresponds hv hw).mp same).imp fun _ _ _ _ _ h => (Number.same_iff.mp h).2
  obtain ⟨corresponds, -, -, comm, trans, tests⟩ := equality_by_value (u := w) hv hw
  have equal : v.equal w := same
  refine ⟨(corresponds equal).1, ?_, ?_⟩
  · exact (trans (comm ▸ equal) equal).mpr (by simp [w])
  refine tests written (.oneOf [null, v]) _ rfl fun item _ => ?_
  exact .cons ⟨inside, by simp [v]⟩ .nil

/-- An integer that is no double is equal to the double next to it, which is equal to another
integer, and asking for the former tells the two ways of writing the latter apart. Below the top
even one is not equal to itself when it is written in two ways. -/
theorem equality_takes_rounded_integer :
    let i : WordInt := ⟨9007199254740993, by decide, by decide⟩
    let j : WordInt := ⟨9007199254740992, by decide, by decide⟩
    let x : Double := ⟨false, 4503599627370496, 1075, by decide, by decide, by decide⟩
    let one : WordInt := ⟨1, by decide, by decide⟩
    let unit : Double := ⟨false, 4503599627370496, 1022, by decide, by decide, by decide⟩
    let asks := (Test.equals (number (.int i))).holds
    (number (.int i)).equal (number (.real x)) ∧ (Number.int i).value ≠ (Number.real x).value ∧
      (number (.real x)).equal (number (.int j)) ∧ (Number.real x).value = (Number.int j).value ∧
      (number (.int i)).equal (number (.int j)) = false ∧
      asks (some (number (.real x))) = true ∧ asks (some (number (.int j))) = false ∧
      (Number.real unit).value = (Number.int one).value ∧
      (list [number (.real unit)]).equal (list [number (.int one)]) = false := by
  intro i j x one unit asks
  have value : x.value = j.val := Double.value_eq_intCast_iff.mpr (by decide +kernel)
  have differ : (i.val : ℚ) ≠ x.value := by
    rw [value]
    exact_mod_cast show i.val ≠ j.val by decide
  have value_unit : unit.value = one.val := Double.value_eq_intCast_iff.mpr (by decide +kernel)
  exact ⟨by decide +kernel, differ, by decide +kernel, value, by decide +kernel, by decide +kernel,
    by decide +kernel, value_unit, by decide +kernel⟩

end Value

end AccessRules

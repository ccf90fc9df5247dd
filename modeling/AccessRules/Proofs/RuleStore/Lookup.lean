import AccessRules.RuleStore
import AccessRules.Proofs.Filter.Admission

/-! The lookup of rules through the index, against a scan of all rules. A list of rules with their
places, newest first, is settled by the rules that are in it, so it is enough that the two have the
same ones. Main statement: the store finds what the scan finds, and the rule that was registered
last settles the checks that it decides and no other. -/

namespace AccessRules

/-! ### Lists of places -/

section Repetitions

variable {places : List Nat}

theorem eraseRepsBy_loop (a : Nat) (rest acc : List Nat) :
    List.eraseRepsBy.loop (· == ·) a rest acc =
      acc.reverse ++ List.eraseRepsBy.loop (· == ·) a rest [] := by
  induction rest generalizing a acc with
  | nil => simp [List.eraseRepsBy.loop]
  | cons b rest ih =>
    rw [List.eraseRepsBy.loop, List.eraseRepsBy.loop]
    cases a == b with
    | true => exact ih a acc
    | false => rw [ih b (a :: acc), ih b [a]]; simp

theorem eraseReps_cons_cons (a b : Nat) (rest : List Nat) :
    (a :: b :: rest).eraseReps =
      if a = b then (b :: rest).eraseReps else a :: (b :: rest).eraseReps := by
  show List.eraseRepsBy.loop (· == ·) a (b :: rest) [] = _
  rw [List.eraseRepsBy.loop]
  by_cases same : a = b
  · subst same
    rw [if_pos rfl, beq_self_eq_true]
    rfl
  · rw [if_neg same, beq_false_of_ne same]
    exact eraseRepsBy_loop b rest [a]

theorem mem_eraseReps {i : Nat} : i ∈ places.eraseReps ↔ i ∈ places := by
  induction places with
  | nil => rfl
  | cons a places ih =>
    cases places with
    | nil => rfl
    | cons b rest =>
      rw [eraseReps_cons_cons]
      split
      case isTrue same =>
        subst same
        rw [ih]
        simp
      case isFalse => rw [List.mem_cons, List.mem_cons, ih]

/-- What descends, descends strictly without its repetitions. -/
theorem pairwise_eraseReps (sorted : places.Pairwise (· ≥ ·)) :
    places.eraseReps.Pairwise (· > ·) := by
  induction places with
  | nil => exact List.Pairwise.nil
  | cons a places ih =>
    cases places with
    | nil => exact List.pairwise_singleton _ _
    | cons b rest =>
      obtain ⟨first, later⟩ := List.pairwise_cons.mp sorted
      obtain ⟨second, -⟩ := List.pairwise_cons.mp later
      rw [eraseReps_cons_cons]
      split
      case isTrue => exact ih later
      case isFalse other =>
        refine List.pairwise_cons.mpr ⟨fun i mem => ?_, ih later⟩
        have below : b ≤ a := first b List.mem_cons_self
        rcases List.mem_cons.mp (mem_eraseReps.mp mem) with rfl | mem
        · omega
        · have := second i mem
          omega

end Repetitions

/-! ### Rules newest first -/

/-- The entries are the rules that have the property, each once with its place, newest first. -/
structure NewestFirst (rules : List Rule) (p : Rule → Prop) (entries : List (Rule × Nat)) :
    Prop where
  mem_iff : ∀ r place, (r, place) ∈ entries ↔ rules[place]? = some r ∧ p r
  descends : entries.Pairwise fun newer older => newer.2 > older.2

namespace NewestFirst

variable {rules : List Rule} {p : Rule → Prop} {entries others : List (Rule × Nat)}

theorem nodup (h : NewestFirst rules p entries) : entries.Nodup :=
  h.descends.imp fun above same => Nat.ne_of_gt above (congrArg Prod.snd same)

theorem unique (h : NewestFirst rules p entries) (h' : NewestFirst rules p others) :
    entries = others := by
  have perm : entries.Perm others := by
    rw [List.perm_ext_iff_of_nodup h.nodup h'.nodup]
    rintro ⟨r, place⟩
    rw [h.mem_iff, h'.mem_iff]
  exact List.Perm.eq_of_pairwise
    (fun _ _ _ _ above below => absurd above (Nat.lt_asymm below)) h.descends h'.descends perm

theorem filter (h : NewestFirst rules p entries) {q : Rule → Bool} (implies : ∀ r, q r → p r) :
    NewestFirst rules (fun r => q r) (entries.filter fun entry => q entry.1) where
  mem_iff r place := by
    rw [List.mem_filter, h.mem_iff]
    constructor
    · rintro ⟨⟨at_place, -⟩, has⟩
      exact ⟨at_place, has⟩
    · rintro ⟨at_place, has⟩
      exact ⟨⟨at_place, implies r has⟩, has⟩
  descends := h.descends.filter _

theorem scan (rules : List Rule) (q : Rule → Bool) :
    NewestFirst rules (fun r => q r) (rules.zipIdx.filter fun entry => q entry.1).reverse where
  mem_iff r place := by rw [List.mem_reverse, List.mem_filter, List.mem_zipIdx_iff_getElem?]
  descends := by
    have ascends : rules.zipIdx.Pairwise fun older newer => newer.2 > older.2 := by
      rw [← List.pairwise_map (f := Prod.snd) (R := (· < ·)), List.zipIdx_map_snd]
      exact List.pairwise_lt_range' 1
    exact List.pairwise_reverse.mpr (ascends.filter _)

end NewestFirst

/-! ### The index -/

namespace RuleStore

theorem lookup_addPlace (type other : String) (place : Nat) (buckets : List (String × List Nat)) :
    ((addPlace type place buckets).lookup other).getD [] =
      (buckets.lookup other).getD [] ++ if type = other then [place] else [] := by
  induction buckets with
  | nil =>
    by_cases same : type = other
    · simp [addPlace, same]
    · simp [addPlace, same, List.lookup_cons, beq_false_of_ne (Ne.symm same)]
  | cons entry rest ih =>
    obtain ⟨t, places⟩ := entry
    by_cases here : type = t
    · subst here
      by_cases same : type = other
      · simp [addPlace, same]
      · simp [addPlace, same, List.lookup_cons, beq_false_of_ne (Ne.symm same)]
    · rw [addPlace, if_neg (by simpa using here), List.lookup_cons, List.lookup_cons]
      cases found : other == t with
      | true =>
        have : type ≠ other := fun same => here (same.trans (eq_of_beq found))
        rw [if_neg this, List.append_nil]
      | false => exact ih

/-- Registering rules one by one adds to a bucket the places of those that name its type. -/
theorem lookup_foldl (entries : List (Rule × Nat)) (buckets : List (String × List Nat))
    (type : String) :
    ((entries.foldl (fun buckets entry => addPlace entry.1.subject entry.2 buckets)
        buckets).lookup type).getD [] =
      (buckets.lookup type).getD [] ++ (entries.filter (·.1.subject == type)).map (·.2) := by
  induction entries generalizing buckets with
  | nil => simp
  | cons entry rest ih =>
    rw [List.foldl_cons, ih, lookup_addPlace]
    by_cases same : entry.1.subject = type <;> simp [same]

variable {rules : List Rule} {type : String}

theorem bucket_ofRules : (ofRules rules).bucket type =
    (rules.zipIdx.filter (·.1.subject == type)).map (·.2) := by
  rw [bucket, ofRules, lookup_foldl]
  rfl

theorem mem_bucket {i : Nat} :
    i ∈ (ofRules rules).bucket type ↔ ∃ r, rules[i]? = some r ∧ r.subject = type := by
  rw [bucket_ofRules, List.mem_map]
  constructor
  · rintro ⟨⟨r, place⟩, mem, rfl⟩
    obtain ⟨mem, names⟩ := List.mem_filter.mp mem
    exact ⟨r, List.mem_zipIdx_iff_getElem?.mp mem, eq_of_beq names⟩
  · rintro ⟨r, at_i, names⟩
    have mem : (r, i) ∈ rules.zipIdx := List.mem_zipIdx_iff_getElem?.mpr at_i
    exact ⟨(r, i), List.mem_filter.mpr ⟨mem, beq_iff_eq.mpr names⟩, rfl⟩

theorem mem_places {i : Nat} : i ∈ (ofRules rules).places type ↔
    ∃ r, rules[i]? = some r ∧ (r.subject = type ∨ r.subject = everyType) := by
  rw [places, mem_eraseReps, List.mem_mergeSort, List.mem_append, mem_bucket, mem_bucket]
  simp only [and_or_left, exists_or]

theorem pairwise_places (s : RuleStore) (type : String) : (s.places type).Pairwise (· > ·) := by
  have trans : ∀ i j k : Nat, decide (j ≤ i) → decide (k ≤ j) → decide (k ≤ i) := by
    simp only [decide_eq_true_eq]
    omega
  have total : ∀ i j : Nat, decide (j ≤ i) || decide (i ≤ j) := by
    simp only [Bool.or_eq_true, decide_eq_true_eq]
    omega
  have sorted := List.pairwise_mergeSort trans total (s.bucket type ++ s.bucket everyType)
  exact pairwise_eraseReps (sorted.imp fun below => of_decide_eq_true below)

theorem newestFirst_concerning (rules : List Rule) (type : String) :
    NewestFirst rules (fun r => r.subject = type ∨ r.subject = everyType)
      ((ofRules rules).concerning type) where
  mem_iff r place := by
    rw [concerning, List.mem_filterMap]
    constructor
    · rintro ⟨i, mem, found⟩
      obtain ⟨s, at_i, same⟩ := Option.map_eq_some_iff.mp found
      obtain ⟨rfl, rfl⟩ := Prod.mk.inj same
      obtain ⟨t, at_i', names⟩ := mem_places.mp mem
      obtain rfl := Option.some.inj (at_i.symm.trans at_i')
      exact ⟨at_i, names⟩
    · rintro ⟨at_place, names⟩
      refine ⟨place, mem_places.mpr ⟨r, at_place, names⟩, ?_⟩
      rw [show (ofRules rules).rules[place]? = some r from at_place]
      rfl
  descends := by
    rw [concerning, List.pairwise_filterMap]
    refine (pairwise_places _ type).imp fun above x found y found' => ?_
    obtain ⟨r, -, rfl⟩ := Option.map_eq_some_iff.mp found
    obtain ⟨s, -, rfl⟩ := Option.map_eq_some_iff.mp found'
    exact above

theorem newestFirst_applicable (rules : List Rule) (action type : String) :
    NewestFirst rules (fun r => r.appliesTo action type)
      ((ofRules rules).applicable action type) := by
  refine (newestFirst_concerning rules type).filter fun r applies => ?_
  have concerns : r.concerns type := (Bool.and_eq_true_iff.mp applies).2
  simpa [Rule.concerns] using concerns

end RuleStore

/-! ### Decisions -/

namespace Ability

theorem store_concerning (a : Ability) (type : String) :
    a.store.concerning type = a.concerning type := by
  have scanned := NewestFirst.scan a.rules (·.concerns type)
  simp only [Rule.concerns, Bool.or_eq_true, beq_iff_eq] at scanned
  exact (RuleStore.newestFirst_concerning a.rules type).unique scanned

theorem store_applicable (a : Ability) (action type : String) :
    a.store.applicable action type = a.applicable action type := by
  rw [RuleStore.applicable, store_concerning, applicable]

theorem can_concat (rules : List Rule) (r : Rule) (skip : Bool) (action : String)
    (subject : Subject) :
    can ⟨rules ++ [r], skip⟩ action subject =
      if r.appliesTo action subject.type && r.decides subject skip then r.effect == .allow
      else can ⟨rules, skip⟩ action subject := by
  rw [can_eq, can_eq, rulesFor_concat]
  cases applies : r.appliesTo action subject.type with
  | false => rfl
  | true =>
    rw [if_pos rfl, Rule.firstAllows_cons, Bool.true_and]

/-- The store finds exactly the rules that name the type or every type, and of those exactly the
ones about the action, each once and newest first. The first of them that decides a check settles
it, so a rule that is registered last says what becomes of the checks that it decides, and nothing
about any other. -/
theorem store_lookup (a : Ability) :
    (∀ type, NewestFirst a.rules (fun r => r.subject = type ∨ r.subject = everyType)
      (a.store.concerning type)) ∧
    (∀ action type, NewestFirst a.rules (fun r => r.appliesTo action type)
      (a.store.applicable action type)) ∧
    ∀ action subject,
      a.deciding? action subject =
        (a.store.applicable action subject.type).find?
          (fun entry => entry.1.decides subject a.skipConditions) ∧
      ∀ r, can ⟨a.rules ++ [r], a.skipConditions⟩ action subject =
        if r.appliesTo action subject.type && r.decides subject a.skipConditions then
          r.effect == .allow
        else a.can action subject := by
  refine ⟨RuleStore.newestFirst_concerning a.rules, RuleStore.newestFirst_applicable a.rules,
    fun action subject => ⟨?_, fun r => can_concat a.rules r a.skipConditions action subject⟩⟩
  rw [store_applicable, deciding?]

end Ability

end AccessRules

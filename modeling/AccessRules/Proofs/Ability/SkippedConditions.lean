import AccessRules.Proofs.Ability.EmptyCondition

/-! Abilities that skip conditions. Every rule then counts as one without a condition, so each check
and each reading of the rules goes no further than the newest rule about the action and type. Main
statement: an ability that skips conditions answers like one whose rules have none. -/

namespace AccessRules

theorem Rule.always_decides (r : Rule) (subject : Subject) :
    r.always.decides subject false = r.decides subject true := by
  rw [decides_unconditioned subject rfl, decides_unconditioned subject rfl]

namespace Gathered

theorem ofRules_skip (newest : Rule) (older : List Rule) :
    ofRules true (newest :: older) = ⟨[], [], [], newest.effect == .allow⟩ :=
  ofRules_unconditioned older (by rfl)

theorem ofRules_always (newest : Rule) (older : List Rule) :
    ofRules false (newest.always :: older.map Rule.always) = ofRules true (newest :: older) := by
  have unconditioned : newest.always.activeCondition false = none := rfl
  rw [ofRules_unconditioned _ unconditioned, ofRules_skip]
  rfl

theorem documents_skip (rules : List Rule) : (ofRules true rules).documents = [] := by
  cases rules with
  | nil => rfl
  | cons newest older => rw [ofRules_skip]

end Gathered

namespace Ability

variable (rules : List Rule) (action type : String)

/-- The same rules are about an action on a type, at the same places. -/
theorem applicable_always :
    applicable ⟨rules.map Rule.always, false⟩ action type =
      (applicable ⟨rules, true⟩ action type).map (Prod.map Rule.always id) := by
  have concerns : (fun entry : Rule × Nat => entry.1.concerns type) ∘ Prod.map Rule.always id =
      fun entry => entry.1.concerns type := rfl
  have applies : (fun entry : Rule × Nat => entry.1.appliesTo action type) ∘
      Prod.map Rule.always id = fun entry => entry.1.appliesTo action type := rfl
  rw [applicable, concerning, applicable, concerning, List.zipIdx_map, List.filter_map, concerns,
    ← List.map_reverse, List.filter_map, applies]

theorem rulesFor_always :
    rulesFor ⟨rules.map Rule.always, false⟩ action type =
      (rulesFor ⟨rules, true⟩ action type).map Rule.always := by
  rw [rulesFor, applicable_always, rulesFor, List.map_map, List.map_map]
  rfl

theorem deciding?_always (subject : Subject) :
    deciding? ⟨rules.map Rule.always, false⟩ action subject =
      (deciding? ⟨rules, true⟩ action subject).map (Prod.map Rule.always id) := by
  have decides : (fun entry : Rule × Nat => entry.1.decides subject false) ∘
      Prod.map Rule.always id = fun entry => entry.1.decides subject true :=
    funext fun entry => Rule.always_decides entry.1 subject
  rw [deciding?, applicable_always, List.find?_map, decides, deciding?]

theorem can_always_eq_skip (subject : Subject) :
    can ⟨rules.map Rule.always, false⟩ action subject = can ⟨rules, true⟩ action subject := by
  rw [can, decidingRule?, deciding?_always, can, decidingRule?]
  cases deciding? ⟨rules, true⟩ action subject <;> rfl

theorem verdict_always :
    verdict ⟨rules.map Rule.always, false⟩ action type = verdict ⟨rules, true⟩ action type := by
  cases about : rulesFor ⟨rules, true⟩ action type with
  | nil =>
    rw [verdict, rulesFor_always, about, verdict, about]
    rfl
  | cons newest older =>
    rw [verdict_skip rfl about, verdict, rulesFor_always, about, List.map_cons]
    exact (scan_unconditioned false false _ rfl).trans (by simp [Rule.always])

theorem query?_always :
    query? ⟨rules.map Rule.always, false⟩ action type = query? ⟨rules, true⟩ action type := by
  rw [query?, rulesFor_always, query?]
  cases rulesFor ⟨rules, true⟩ action type with
  | nil => rfl
  | cons newest older => simp only [List.map_cons, Gathered.ofRules_always newest older]

theorem documents_query?_skip :
    (query? ⟨rules, true⟩ action type).all (·.documents.isEmpty) := by
  cases query : query? ⟨rules, true⟩ action type with
  | none => rfl
  | some q =>
    rw [Option.all_some, eq_of_query? query, List.isEmpty_iff]
    exact Gathered.documents_skip _

/-- An ability that skips conditions and one whose rules have none answer alike: each check has the
same answer and is decided by the same rule, found at the same place, and every verdict is the same,
as is every query, which is made of no condition document. -/
theorem skipping_is_dropping (rules : List Rule) (action : String) :
    let skipping : Ability := ⟨rules, true⟩
    let dropping : Ability := ⟨rules.map Rule.always, false⟩
    (∀ subject, dropping.can action subject = skipping.can action subject ∧
      dropping.deciding? action subject =
        (skipping.deciding? action subject).map fun (r, place) => (r.always, place)) ∧
    ∀ type, dropping.verdict action type = skipping.verdict action type ∧
      dropping.query? action type = skipping.query? action type ∧
      (skipping.query? action type).all (·.documents.isEmpty) := by
  intro skipping dropping
  refine ⟨fun subject => ⟨can_always_eq_skip rules action subject, ?_⟩, fun type => ⟨?_, ?_, ?_⟩⟩
  · exact deciding?_always rules action subject
  · exact verdict_always rules action type
  · exact query?_always rules action type
  · exact documents_query?_skip rules action type

end Ability

end AccessRules

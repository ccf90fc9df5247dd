import AccessRules.Filter

/-! Stored rules. A rule keeps its condition as the document it was given as and as the formula that
the document means, and only the document is written. What is read back is the rule as it was: the
document field by field in the same order, and the formula that is made again from it, which is the
formula that the rule had because every rule comes by its condition in this way. An ability that is
reloaded from its stored rules is the ability itself. More values are read as rules than rules are
written as, with null for a part that is left out, with other keys or as lists of the parts; once
stored, such a rule stays what it was read as. -/

namespace AccessRules

/-! ### Conditions -/

/-- The formula of a condition is the one that its document means. -/
def Condition.IsParsed (c : Condition) : Prop := c.formula = .ofDocument c.document

theorem Condition.isParsed_ofDocument (d : Document) : (ofDocument d).IsParsed := rfl

/-- The formula is made again from the document. -/
theorem Condition.ofDocument_document {c : Condition} (parsed : c.IsParsed) :
    ofDocument c.document = c := by
  rw [ofDocument, ← parsed]

namespace Rule

/-! ### Where rules come from -/

/-- The condition of the rule, if it has one, is parsed. -/
def IsParsed (r : Rule) : Prop := ∀ c, r.condition = some c → c.IsParsed

/-- The rules that there are: a rule is made for an action on a type, is given a condition or a
reason, or is read from a value. -/
inductive Held : Rule → Prop where
  | allow (action subject : String) : Held (.allow action subject)
  | deny (action subject : String) : Held (.deny action subject)
  | under {r : Rule} (held : Held r) (condition : Document) : Held (r.under condition)
  | because {r : Rule} (held : Held r) (reason : String) : Held (r.because reason)
  | read {v : Value} {r : Rule} (read : ofValue? v = some r) : Held r

theorem isParsed_of_ofParts? {action subject inverted condition reason : Option Value} {r : Rule}
    (read : ofParts? action subject inverted condition reason = some r) : r.IsParsed := by
  simp only [ofParts?, Option.bind_eq_bind, Option.bind_eq_some_iff] at read
  obtain ⟨_, -, _, -, _, -, document, -, _, -, made⟩ := read
  obtain rfl := Option.some.inj made
  intro c kept
  obtain ⟨d, -, rfl⟩ := Option.map_eq_some_iff.mp kept
  exact Condition.isParsed_ofDocument d

theorem isParsed_of_ofValue? {v : Value} {r : Rule} (read : ofValue? v = some r) :
    r.IsParsed := by
  unfold ofValue? at read
  split at read
  · exact isParsed_of_ofParts? read
  · split at read
    · exact isParsed_of_ofParts? read
    · cases read
  · cases read

/-- No rule comes by a formula but from the document of its condition. -/
theorem Held.isParsed {r : Rule} (held : r.Held) : r.IsParsed := by
  induction held with
  | allow action subject | deny action subject => nofun
  | under held d ih =>
    intro c kept
    rw [Rule.under] at kept
    split at kept
    · cases kept
    · obtain rfl := Option.some.inj kept
      exact Condition.isParsed_ofDocument d
  | because held reason ih => exact ih
  | read read => exact isParsed_of_ofValue? read

/-! ### Writing and reading -/

theorem effect?_inverted (effect : Effect) :
    effect? (some (.bool (effect == .deny))) = some effect := by
  cases effect <;> rfl

theorem optionalObject?_toValue (condition : Option Condition) :
    Value.optionalObject? (condition.map Condition.toValue) =
      some (condition.map (·.document)) := by
  cases condition <;> rfl

theorem optionalText?_map (reason : Option String) :
    Value.optionalText? (reason.map .text) = some reason := by
  cases reason <;> rfl

theorem IsParsed.map_ofDocument {r : Rule} (parsed : r.IsParsed) :
    (r.condition.map (·.document)).map .ofDocument = r.condition := by
  cases kept : r.condition with
  | none => rfl
  | some c => rw [Option.map_some, Option.map_some, Condition.ofDocument_document (parsed c kept)]

/-- Each part is found under its key, whether the parts before it are there or not. -/
theorem ofValue?_toValue_eq (r : Rule) :
    ofValue? r.toValue = ofParts? (some (.text r.action)) (some (.text r.subject))
      (some (.bool (r.effect == .deny))) (r.condition.map Condition.toValue)
      (r.reason.map .text) := by
  obtain ⟨action, subject, effect, condition, reason⟩ := r
  cases condition <;> cases reason <;> rfl

/-- The effect is read from the polarity that was written for it, and the condition is made from the
document that was written of it. -/
theorem ofParts?_parts (r : Rule) :
    ofParts? (some (.text r.action)) (some (.text r.subject)) (some (.bool (r.effect == .deny)))
      (r.condition.map Condition.toValue) (r.reason.map .text) =
        some { r with condition := (r.condition.map (·.document)).map .ofDocument } := by
  rw [ofParts?, effect?_inverted, optionalObject?_toValue, optionalText?_map]
  rfl

theorem ofValue?_toValue {r : Rule} (parsed : r.IsParsed) : ofValue? r.toValue = some r := by
  rw [ofValue?_toValue_eq, ofParts?_parts, parsed.map_ofDocument]

/-- The rules that there are have a parsed condition or none, and every such rule can be read. -/
theorem held_iff {r : Rule} : r.Held ↔ r.IsParsed :=
  ⟨Held.isParsed, fun parsed => .read (ofValue?_toValue parsed)⟩

theorem mapM_ofValue?_toValue {rules : List Rule} (held : ∀ r ∈ rules, r.Held) :
    (rules.map toValue).mapM ofValue? = some rules := by
  induction rules with
  | nil => rfl
  | cons r rest ih =>
    obtain ⟨first, others⟩ := List.forall_mem_cons.mp held
    rw [List.map_cons, List.mapM_cons, ofValue?_toValue first.isParsed, ih others]
    rfl

end Rule

/-- The ability of the rules that are read back from what its rules are stored as. -/
def Ability.reload? (a : Ability) : Option Ability :=
  ((a.rules.map Rule.toValue).mapM Rule.ofValue?).map fun rules => { a with rules }

theorem Ability.reload?_eq {a : Ability} (held : ∀ r ∈ a.rules, r.Held) : a.reload? = some a := by
  rw [reload?, Rule.mapM_ofValue?_toValue held, Option.map_some]

/-- Every rule is read back from what it is stored as, with the document and the formula of its
condition. A reloaded ability answers every check and every query as before, and what a value is
read as is read again after it was stored. -/
theorem Rule.survives_storage :
    (∀ r : Rule, r.Held → ofValue? r.toValue = some r) ∧
    (∀ a : Ability, (∀ r ∈ a.rules, r.Held) →
      ∀ (action : String) (subject : Subject) (type : String),
        a.reload?.map (fun reloaded => (reloaded.can action subject, reloaded.verdict action type,
          reloaded.query? action type)) =
            some (a.can action subject, a.verdict action type, a.query? action type)) ∧
    ∀ v : Value, ((ofValue? v).bind fun r => ofValue? r.toValue) = ofValue? v := by
  refine ⟨fun r held => ofValue?_toValue held.isParsed, fun a held action subject type => ?_,
    fun v => ?_⟩
  · rw [Ability.reload?_eq held, Option.map_some]
  · cases read : ofValue? v with
    | none => rfl
    | some r => exact ofValue?_toValue (isParsed_of_ofValue? read)

/-- A denial under negated operators and a nested literal, with a reason, and a grant that was read
with an empty condition. -/
theorem Rule.survives_storage_negated :
    let r : Rule := ((Rule.deny "update" "Post").under
      [("status", .object [("$not", .object [("$in", .list [.text "draft", .null])])]),
        ("owner", .object [("team", .text "t"), ("id", .text "u")])]).because "posts are frozen"
    let s : Rule := ⟨"read", "Post", .allow, some (.ofDocument []), none⟩
    let a : Ability := ⟨[r, s], false⟩
    r.Held ∧ s.Held ∧ ofValue? r.toValue = some r ∧
      a.reload?.map (fun reloaded => (reloaded.can "read" (.item "Post" []),
        reloaded.verdict "read" "Post", reloaded.query? "read" "Post")) =
          some (a.can "read" (.item "Post" []), a.verdict "read" "Post",
            a.query? "read" "Post") := by
  intro r s a
  have denied : r.Held := .because (.under (.deny "update" "Post") _) _
  have granted : s.Held := held_iff.mpr fun c kept => by
    obtain rfl := Option.some.inj kept
    exact Condition.isParsed_ofDocument []
  obtain ⟨stored, reloaded, -⟩ := survives_storage
  refine ⟨denied, granted, stored r denied, reloaded a ?_ "read" (.item "Post" []) "Post"⟩
  exact List.forall_mem_cons.mpr ⟨denied, List.forall_mem_singleton.mpr granted⟩

end AccessRules

import AccessRules.Proofs.Authorizer.Decision

/-! The reason that an authorization gives. The verdict on a type and the reason are looked up by
different scans of the rules; both follow the newest rule that decides the check. Main statement:
a reason is given exactly where that rule denies and has one, and it is the reason of that rule. -/

namespace AccessRules

/-! ### The newest rule -/

namespace Ability

/-- The rule is about the action on the type of the subject and decides the check, which no rule
that was registered after it does. -/
def IsDecidedBy (a : Ability) (action : String) (subject : Subject) (r : Rule) : Prop :=
  ∃ older newer, a.rules = older ++ r :: newer ∧
    r.appliesTo action subject.type ∧ r.decides subject a.skipConditions ∧
    ∀ s ∈ newer, ¬(s.appliesTo action subject.type ∧ s.decides subject a.skipConditions)

variable {a : Ability} {action type : String} {subject : Subject}

theorem decidingRule?_eq_some_iff {r : Rule} :
    a.decidingRule? action subject = some r ↔ a.IsDecidedBy action subject r := by
  rw [decidingRule?_eq, rulesFor_eq, ← List.filter_reverse, List.find?_filter,
    List.find?_eq_some_iff_append]
  simp only [decide_eq_true_eq, Bool.not_eq_true', decide_eq_false_iff_not]
  constructor
  · rintro ⟨⟨applies, decides⟩, newer, older, split, none⟩
    refine ⟨older.reverse, newer.reverse, ?_, applies, decides, fun s mem => ?_⟩
    · simpa using congrArg List.reverse split
    · exact none s (List.mem_reverse.mp mem)
  · rintro ⟨older, newer, split, applies, decides, none⟩
    refine ⟨⟨applies, decides⟩, newer.reverse, older.reverse, ?_, fun s mem => ?_⟩
    · simpa using congrArg List.reverse split
    · exact none s (List.mem_reverse.mp mem)

theorem denyReason_eq_some_iff {reason : String} :
    a.denyReason action subject = some reason ↔
      ∃ r, a.IsDecidedBy action subject r ∧ r.effect = .deny ∧ r.reason = some reason := by
  simp only [← decidingRule?_eq_some_iff, denyReason]
  cases a.decidingRule? action subject with
  | none => simp
  | some r => simp

/-- What is allowed has no reason to be denied. -/
theorem denyReason_of_can (allowed : a.can action subject = true) :
    a.denyReason action subject = none := by
  unfold can at allowed
  unfold denyReason
  cases found : a.decidingRule? action subject with
  | none => rfl
  | some r =>
    have grants : r.effect = .allow := by simpa [found] using allowed
    simp [grants]

/-- A settled answer is that of the bare type. -/
theorem can_bare_of_settled {answer : Bool} (h : a.verdict action type = .settled answer) :
    a.can action (.bare type) = answer := by
  have some_rule : a.rulesFor action type ≠ [] := by
    intro none
    rw [verdict, none] at h
    cases h
  cases skip : a.skipConditions with
  | true =>
    obtain ⟨newest, older, rules⟩ := List.exists_cons_of_ne_nil some_rule
    rw [verdict_skip skip rules] at h
    rw [can_skip skip rules]
    exact Verdict.settled.inj h
  | false =>
    rw [verdict_eq_bare skip some_rule] at h
    split at h
    case isTrue => cases h
    case isFalse => exact Verdict.settled.inj h

end Ability

/-! ### The reason of a ruling -/

/-- The subject that a decision was checked on: the bare type, or what the first subject was found
to be. The other decisions rest on no check. -/
inductive Subjects.Checked (s : Subjects) (type : String) : Basis → Subject → Prop
  | typeLevel : s.Checked type .typeLevel (.bare type)
  | item {v : Value} (found : s.primary.1 = .ok (some v)) :
      s.Checked type .item (.ofValue type v)

section Checked

variable {s : Subjects} {type : String} {subject : Subject}

theorem Subjects.Checked.basis {basis : Basis} (checked : s.Checked type basis subject) :
    basis = .typeLevel ∨ basis = .item := by
  cases checked with
  | typeLevel => exact .inl rfl
  | item found => exact .inr rfl

theorem Subjects.checked_typeLevel_iff :
    s.Checked type .typeLevel subject ↔ subject = .bare type := by
  constructor
  · rintro ⟨⟩
    rfl
  · rintro rfl
    exact .typeLevel

theorem Subjects.checked_item_iff {v : Value} (found : s.primary.1 = .ok (some v)) :
    s.Checked type .item subject ↔ subject = .ofValue type v := by
  constructor
  · rintro (_ | @⟨w, same⟩)
    obtain rfl : w = v := Option.some.inj (Except.ok.inj (same.symm.trans found))
    rfl
  · rintro rfl
    exact .item found

end Checked

namespace Authorizer

variable {z : Authorizer} {request : Request} {policy : Policy}

section Rules

variable {a : Ability} {action type : String} {s t : Subjects} {ruling : Ruling}

theorem Rules.reason_of_allowed (rules : z.Rules a action type s ruling t)
    (allowed : ruling.allowed) : ruling.reason = none := by
  cases rules with
  | noRules verdict => rfl
  | typeLevel verdict =>
    have bare := Ability.can_bare_of_settled verdict
    exact Ability.denyReason_of_can (bare.trans allowed)
  | item verdict found => exact Ability.denyReason_of_can allowed
  | unresolved verdict found => rfl

theorem Rules.reason_iff (rules : z.Rules a action type s ruling t) {reason : String} :
    ruling.reason = some reason ↔
      ∃ subject r, s.Checked type ruling.basis subject ∧ a.IsDecidedBy action subject r ∧
        r.effect = .deny ∧ r.reason = some reason := by
  cases rules with
  | noRules | unresolved =>
    refine iff_of_false nofun ?_
    rintro ⟨subject, r, checked, -⟩
    cases checked
  | typeLevel verdict =>
    simp only [Subjects.checked_typeLevel_iff, exists_and_left, exists_eq_left]
    exact Ability.denyReason_eq_some_iff
  | item verdict found =>
    simp only [Ability.ruling, Subjects.checked_item_iff found, exists_and_left, exists_eq_left]
    exact Ability.denyReason_eq_some_iff

end Rules

/-- An authorization is about the action and the type of the policy. -/
theorem about_of_authorize {auth : Authorization} (ok : z.authorize request policy = .ok auth) :
    auth.action = z.actionOf policy ∧ auth.subject = policy.subject := by
  rcases authorize_cases ok with ⟨-, rfl⟩ | ⟨u, ruling, session, -, rfl, -⟩
  · exact ⟨rfl, rfl⟩
  · exact ⟨rfl, rfl⟩

theorem authorize_of_ruling {ruling : Ruling}
    (h : (z.authorize request policy).toOption.map (·.ruling) = some ruling) :
    ∃ auth, z.authorize request policy = .ok auth ∧ auth.ruling = ruling := by
  cases decided : z.authorize request policy with
  | error failure =>
    rw [decided] at h
    cases h
  | ok auth =>
    rw [decided] at h
    exact ⟨auth, rfl, Option.some.inj h⟩

theorem reason_of_allowed {auth : Authorization} (ok : z.authorize request policy = .ok auth)
    (allowed : auth.ruling.allowed) : auth.ruling.reason = none := by
  rcases authorize_cases ok with ⟨-, rfl⟩ | ⟨u, ruling, session, -, rfl, decides⟩
  · rfl
  · cases decides with
    | superuser bypass => rfl
    | byRules ordinary rules => exact rules.reason_of_allowed allowed

theorem reason_eq_some_iff {auth : Authorization} (ok : z.authorize request policy = .ok auth)
    {reason : String} :
    auth.ruling.reason = some reason ↔
      ∃ u subject r, z.findActor request = .ok (some u) ∧
        (z.subjectsFor u request policy).Checked policy.subject auth.ruling.basis subject ∧
        (z.abilityFor u policy).IsDecidedBy (z.actionOf policy) subject r ∧
        r.effect = .deny ∧ r.reason = some reason := by
  rcases authorize_cases ok with ⟨-, rfl⟩ | ⟨u, ruling, session, actor, rfl, decides⟩
  · refine iff_of_false nofun ?_
    rintro ⟨u, subject, r, -, checked, -⟩
    cases checked
  · cases decides with
    | superuser bypass =>
      refine iff_of_false nofun ?_
      rintro ⟨u, subject, r, -, checked, -⟩
      cases checked
    | byRules ordinary rules =>
      refine rules.reason_iff.trans ⟨?_, ?_⟩
      · rintro ⟨subject, r, decided⟩
        exact ⟨u, subject, r, actor, decided⟩
      · rintro ⟨u', subject, r, actor', decided⟩
        obtain rfl : u = u' := Option.some.inj (Except.ok.inj (actor.symm.trans actor'))
        exact ⟨subject, r, decided⟩

/-- What is allowed has no reason. A reason is given exactly where the newest rule that decides the
check on the bare type, or on the subject that was found, denies and has the reason; then the
request is not allowed, and whoever insists on it is told the reason. -/
theorem authorize_reason {auth : Authorization} (ok : z.authorize request policy = .ok auth) :
    (auth.ruling.allowed → auth.ruling.reason = none) ∧
    ∀ reason,
      (auth.ruling.reason = some reason ↔
        ∃ u subject r, z.findActor request = .ok (some u) ∧
          (z.subjectsFor u request policy).Checked policy.subject auth.ruling.basis subject ∧
          (z.abilityFor u policy).IsDecidedBy (z.actionOf policy) subject r ∧
          r.effect = .deny ∧ r.reason = some reason) ∧
      (auth.ruling.reason = some reason →
        ¬auth.ruling.allowed ∧ (auth.ruling.basis = .typeLevel ∨ auth.ruling.basis = .item) ∧
          auth.ensureAllowed =
            .error (.notAllowed (z.actionOf policy) policy.subject (some reason))) := by
  refine ⟨reason_of_allowed ok, fun reason => ⟨reason_eq_some_iff ok, fun given => ?_⟩⟩
  obtain ⟨u, subject, r, -, checked, -⟩ := (reason_eq_some_iff ok).mp given
  have denied : ¬auth.ruling.allowed := by
    intro allowed
    rw [reason_of_allowed ok allowed] at given
    cases given
  have about := about_of_authorize ok
  refine ⟨denied, checked.basis, ?_⟩
  rw [Authorization.ensureAllowed, if_neg denied, given, about.1, about.2]

/-- A member may update posts, but the one that is found is in review. -/
theorem authorize_reason_review :
    let posts : Permissions := .withRole .empty "member" fun _ =>
      [.can "update" "Post", .cannotWhen "update" "Post" (.object [("status", .text "review")]),
        .because "in review"]
    let z : Authorizer := ⟨{}, ⟨[posts], none⟩, .empty, authenticated⟩
    let u : Actor := { Actor.ofId "u" with role := some "member" }
    let post : Value := .object [("status", .text "review")]
    let policy : Policy :=
      ⟨some "update", "Post", [("post", .plain fun _ => .ok (some post))], none⟩
    ∃ auth, z.authorize (.ofActor (some u)) policy = .ok auth ∧ auth.ruling.basis = .item ∧
      auth.ensureAllowed = .error (.notAllowed "update" "Post" (some "in review")) := by
  intro posts z u post policy
  have ruled : (z.authorize (.ofActor (some u)) policy).toOption.map (·.ruling) =
      some ⟨.item, false, some "in review"⟩ := by decide +kernel
  obtain ⟨auth, ok, ruling⟩ := authorize_of_ruling ruled
  have reason : auth.ruling.reason = some "in review" := by rw [ruling]
  exact ⟨auth, ok, by rw [ruling], (((authorize_reason ok).2 _).2 reason).2.2⟩

end Authorizer

end AccessRules

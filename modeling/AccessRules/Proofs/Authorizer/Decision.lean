import AccessRules.Authorizer
import AccessRules.Proofs.Ability.Verdict

/-! What a decided request carries. The ruling, the query, the capability and the subjects of an
authorization come from different parts of the decision; `authorize_session` lists how they come
about together. From it: the parts of an authorization agree with each other, and what is allowed
under a configuration that abstains without an item. -/

namespace AccessRules

/-! ### Verdicts -/

namespace Ability

variable {a : Ability} {action type : String}

theorem query?_eq_none_of_verdict (h : a.verdict action type = .noRules) :
    a.query? action type = none := by
  rw [verdict_eq_query] at h
  cases query : a.query? action type with
  | none => rfl
  | some q =>
    rw [query] at h
    exact absurd h q.filter.verdict_ne_noRules

theorem exists_query_of_verdict {verdict : Verdict} (h : a.verdict action type = verdict)
    (rules : verdict ≠ .noRules) :
    ∃ q, a.query? action type = some q ∧ q.filter.verdict = verdict := by
  rw [verdict_eq_query] at h
  cases query : a.query? action type with
  | none =>
    rw [query] at h
    exact absurd h.symm rules
  | some q =>
    rw [query] at h
    exact ⟨q, rfl, h⟩

theorem exists_query_of_settled {answer : Bool} (h : a.verdict action type = .settled answer) :
    ∃ q, a.query? action type = some q ∧ (answer → q.filter.isUnrestricted) ∧
      (¬answer → q.filter.isForbidden) := by
  obtain ⟨q, query, filter⟩ := exists_query_of_verdict h nofun
  cases answer with
  | true => exact ⟨q, query, fun _ => q.filter.verdict_eq_grant_iff.mp filter, by simp⟩
  | false => exact ⟨q, query, by simp, fun _ => q.filter.verdict_eq_denial_iff.mp filter⟩

theorem exists_query_of_needsItem (h : a.verdict action type = .needsItem) :
    ∃ q, a.query? action type = some q ∧ ¬q.filter.isForbidden ∧ ¬q.filter.isUnrestricted := by
  obtain ⟨q, query, filter⟩ := exists_query_of_verdict h nofun
  obtain ⟨restricted, possible⟩ := q.filter.verdict_eq_needsItem_iff.mp filter
  exact ⟨q, query, possible, restricted⟩

/-- A settled answer is that of every item. -/
theorem can_item_of_settled {answer : Bool} (h : a.verdict action type = .settled answer)
    (fields : Document) : a.can action (.item type fields) = answer := by
  cases rules : a.rulesFor action type with
  | nil =>
    rw [verdict, rules] at h
    cases h
  | cons newest older =>
    cases skip : a.skipConditions with
    | true =>
      rw [verdict_skip skip rules] at h
      rw [can_skip skip rules]
      exact Verdict.settled.inj h
    | false =>
      have some_rule : a.rulesFor action type ≠ [] := rules ▸ List.cons_ne_nil newest older
      rw [verdict_eq_bare skip some_rule] at h
      split at h
      case isTrue => cases h
      case isFalse uncontested =>
        obtain rfl := Verdict.settled.inj h
        rw [can_eq, skip]
        refine Rule.firstAllows_item ?_ (Bool.not_eq_true _ ▸ uncontested) fields
        rw [can_eq, skip]
        rfl

end Ability

/-! ### How a request is decided -/

/-- The subjects of a request of an actor, before any is asked for. -/
def Authorizer.subjectsFor (z : Authorizer) (u : Actor) (request : Request) (policy : Policy) :
    Subjects :=
  .fresh ⟨request, z.services, u⟩ policy.resolvers

/-- How the rules of an actor decide, with the subjects after it: one case for each basis. -/
inductive Authorizer.Rules (z : Authorizer) (a : Ability) (action type : String) (s : Subjects) :
    Ruling → Subjects → Prop
  | noRules (verdict : a.verdict action type = .noRules) :
      z.Rules a action type s ⟨.noRules, false, none⟩ s
  | typeLevel {allowed : Bool} (verdict : a.verdict action type = .settled allowed) :
      z.Rules a action type s ⟨.typeLevel, allowed, a.denyReason action (.bare type)⟩ s
  | item {v : Value} (verdict : a.verdict action type = .needsItem)
      (found : s.primary.1 = .ok (some v)) :
      z.Rules a action type s (a.ruling .item action (.ofValue type v)) s.primary.2
  | unresolved (verdict : a.verdict action type = .needsItem)
      (found : s.primary.1 = .ok none) :
      z.Rules a action type s ⟨.unresolved, !z.config.abstainWithoutItem, none⟩ s.primary.2

/-- How the request of an actor is decided, with what the endpoint can go on with. -/
inductive Authorizer.Decides (z : Authorizer) (u : Actor) (request : Request) (policy : Policy) :
    Ruling → Session → Prop
  | superuser (bypass : z.config.isSuperuser u = true) :
      z.Decides u request policy ⟨.superuser, true, none⟩
        ⟨.superuser u, z.subjectsFor u request policy⟩
  | byRules {ruling : Ruling} {subjects : Subjects} (ordinary : z.config.isSuperuser u = false)
      (rules : z.Rules (z.abilityFor u policy) (z.actionOf policy) policy.subject
        (z.subjectsFor u request policy) ruling subjects) :
      z.Decides u request policy ruling ⟨.ruled u (z.abilityFor u policy), subjects⟩

/-- The authorization with a session: its query is the one of the capability. -/
def Authorization.ofSession (action subject : String) (ruling : Ruling) (session : Session) :
    Authorization :=
  ⟨action, subject, ruling, session.capability.query? action subject, some session⟩

namespace Authorizer

variable {z : Authorizer} {request : Request} {policy : Policy} {u : Actor}

theorem rules_of_ruleWith {a : Ability} {action type : String} {s t : Subjects} {ruling : Ruling}
    (h : z.ruleWith a action type s = (.ok ruling, t)) : z.Rules a action type s ruling t := by
  cases verdict : a.verdict action type with
  | noRules =>
    rw [ruleWith, verdict] at h
    cases h
    exact .noRules verdict
  | settled allowed =>
    rw [ruleWith, verdict] at h
    cases h
    exact .typeLevel verdict
  | needsItem =>
    rw [ruleWith, verdict] at h
    have found : s.primary.1.map (z.ruleFound a action type) = .ok ruling := congrArg Prod.fst h
    obtain rfl : s.primary.2 = t := congrArg Prod.snd h
    cases first : s.primary.1 with
    | error e =>
      rw [first] at found
      cases found
    | ok value =>
      rw [first] at found
      obtain rfl := Except.ok.inj found
      cases value with
      | none => exact .unresolved verdict first
      | some v => exact .item verdict first

theorem decides_of_authorizeActor {auth : Authorization}
    (h : z.authorizeActor u request policy = .ok auth) :
    ∃ ruling session, auth = .ofSession (z.actionOf policy) policy.subject ruling session ∧
      z.Decides u request policy ruling session := by
  unfold authorizeActor at h
  simp only at h
  split at h
  case isTrue bypass =>
    obtain rfl := Except.ok.inj h
    exact ⟨_, _, rfl, .superuser bypass⟩
  case isFalse ordinary =>
    split at h
    case h_1 => cases h
    case h_2 ruling subjects ruled =>
      obtain rfl := Except.ok.inj h
      refine ⟨ruling, _, rfl, .byRules ?_ (rules_of_ruleWith ruled)⟩
      exact Bool.not_eq_true _ ▸ ordinary

theorem authorize_cases {auth : Authorization} (ok : z.authorize request policy = .ok auth) :
    z.findActor request = .ok none ∧ auth = .anonymous (z.actionOf policy) policy.subject ∨
      ∃ u ruling session, z.findActor request = .ok (some u) ∧
        auth = .ofSession (z.actionOf policy) policy.subject ruling session ∧
        z.Decides u request policy ruling session := by
  unfold authorize at ok
  split at ok
  case h_1 => cases ok
  case h_2 none => exact .inl ⟨none, (Except.ok.inj ok).symm⟩
  case h_3 u found =>
    obtain ⟨ruling, session, auth_eq, decides⟩ := decides_of_authorizeActor ok
    exact .inr ⟨u, ruling, session, found, auth_eq, decides⟩

/-- An authorization with a session is that of an actor. -/
theorem authorize_session {auth : Authorization} {session : Session}
    (ok : z.authorize request policy = .ok auth) (actor : auth.session = some session) :
    ∃ u ruling, auth = .ofSession (z.actionOf policy) policy.subject ruling session ∧
      z.Decides u request policy ruling session := by
  rcases authorize_cases ok with ⟨-, rfl⟩ | ⟨u, ruling, own, -, rfl, decides⟩
  · cases actor
  · obtain rfl : own = session := Option.some.inj actor
    exact ⟨u, ruling, rfl, decides⟩

end Authorizer

/-! ### Coherence -/

/-- The parts of an authorization agree. -/
structure Authorization.Coherent (auth : Authorization) (session : Session) : Prop where
  query : auth.query = session.capability.query? auth.action auth.subject
  noRules : auth.ruling.basis = .noRules ↔ auth.query = none
  granted : auth.ruling.allowed → ∃ q, auth.query = some q ∧ ¬q.filter.isForbidden
  /-- Where the type decides, it does so for every item, and the query says as much. -/
  typeLevel : auth.ruling.basis = .typeLevel →
    (∃ q, auth.query = some q ∧ (auth.ruling.allowed → q.filter.isUnrestricted) ∧
      (¬auth.ruling.allowed → q.filter.isForbidden)) ∧
    ∀ fields, session.capability.can auth.action (.item auth.subject fields) = auth.ruling.allowed
  needsItem : auth.ruling.basis = .item ∨ auth.ruling.basis = .unresolved →
    ∃ q, auth.query = some q ∧ ¬q.filter.isForbidden ∧ ¬q.filter.isUnrestricted
  /-- Whatever the query admits is allowed, however the request was decided. -/
  admitted : ∀ q fields, auth.query = some q → q.admits fields →
    session.capability.can auth.action (.item auth.subject fields)

theorem Filter.not_isForbidden_of_isUnrestricted {filter : Filter} (h : filter.isUnrestricted) :
    ¬filter.isForbidden := by
  cases filter with
  | forbidden => cases h
  | select allow deny => exact Bool.false_ne_true

/-- Whatever the query of a capability admits, the capability allows. -/
theorem Capability.can_of_admits (c : Capability) (action type : String) (q : Query)
    (fields : Document) (query : c.query? action type = some q) (admits : q.admits fields) :
    c.can action (.item type fields) := by
  cases c with
  | ruled u a => exact ((Ability.query_admits_iff fields query).mp admits).1
  | superuser u => rfl

namespace Authorization

variable {action type : String} {ruling : Ruling} {u : Actor} {a : Ability} {s : Subjects}

theorem coherent_superuser :
    (ofSession action type ⟨.superuser, true, none⟩ ⟨.superuser u, s⟩).Coherent
      ⟨.superuser u, s⟩ := by
  refine ⟨rfl, ⟨nofun, nofun⟩, fun _ => ⟨_, rfl, nofun⟩, nofun, ?_, fun _ _ _ _ => rfl⟩
  rintro (basis | basis) <;> cases basis

theorem coherent_noRules (verdict : a.verdict action type = .noRules) :
    (ofSession action type ⟨.noRules, false, none⟩ ⟨.ruled u a, s⟩).Coherent ⟨.ruled u a, s⟩ := by
  have none : a.query? action type = .none := Ability.query?_eq_none_of_verdict verdict
  refine ⟨rfl, ⟨fun _ => none, fun _ => rfl⟩, nofun, nofun, ?_,
    Capability.can_of_admits (.ruled u a) action type⟩
  rintro (basis | basis) <;> cases basis

theorem coherent_typeLevel {allowed : Bool} {reason : Option String}
    (verdict : a.verdict action type = .settled allowed) :
    (ofSession action type ⟨.typeLevel, allowed, reason⟩ ⟨.ruled u a, s⟩).Coherent
      ⟨.ruled u a, s⟩ := by
  obtain ⟨q, query, grant, denial⟩ := Ability.exists_query_of_settled verdict
  have granted : allowed → ¬q.filter.isForbidden :=
    fun h => Filter.not_isForbidden_of_isUnrestricted (grant h)
  refine ⟨rfl, ⟨nofun, fun none => absurd (query.symm.trans none) nofun⟩,
    fun h => ⟨q, query, granted h⟩,
    fun _ => ⟨⟨q, query, grant, denial⟩, Ability.can_item_of_settled verdict⟩, ?_,
    Capability.can_of_admits (.ruled u a) action type⟩
  rintro (basis | basis) <;> cases basis

theorem coherent_needsItem (verdict : a.verdict action type = .needsItem)
    (basis : ruling.basis = .item ∨ ruling.basis = .unresolved) :
    (ofSession action type ruling ⟨.ruled u a, s⟩).Coherent ⟨.ruled u a, s⟩ := by
  obtain ⟨q, query, possible, restricted⟩ := Ability.exists_query_of_needsItem verdict
  have rules : ruling.basis ≠ .noRules := by
    rcases basis with h | h <;> simp [h]
  have asked : ruling.basis ≠ .typeLevel := by
    rcases basis with h | h <;> simp [h]
  exact ⟨rfl, ⟨fun h => absurd h rules, fun none => absurd (query.symm.trans none) nofun⟩,
    fun _ => ⟨q, query, possible⟩, fun h => absurd h asked,
    fun _ => ⟨q, query, possible, restricted⟩, Capability.can_of_admits (.ruled u a) action type⟩

end Authorization

namespace Authorizer

variable {z : Authorizer} {request : Request} {policy : Policy}

/-- Every authorization of an actor is about the action and type of the policy, and coherent. -/
theorem authorize_coherent {auth : Authorization} {session : Session}
    (ok : z.authorize request policy = .ok auth) (actor : auth.session = some session) :
    auth.action = policy.action.getD z.config.defaultAction ∧ auth.subject = policy.subject ∧
      auth.Coherent session := by
  obtain ⟨u, ruling, rfl, decides⟩ := authorize_session ok actor
  refine ⟨rfl, rfl, ?_⟩
  cases decides with
  | superuser bypass => exact Authorization.coherent_superuser
  | byRules ordinary rules =>
    cases rules with
    | noRules verdict => exact Authorization.coherent_noRules verdict
    | typeLevel verdict => exact Authorization.coherent_typeLevel verdict
    | item verdict found => exact Authorization.coherent_needsItem verdict (.inl rfl)
    | unresolved verdict found => exact Authorization.coherent_needsItem verdict (.inr rfl)

/-- An actor with the role of a member whose own posts may be edited, but not those in review. -/
theorem authorize_coherent_member :
    let posts : Permissions := .withRole .empty "member" fun u =>
      [.canWhen "update" "Post" (.object [("owner", .text u.id)]),
        .cannotWhen "update" "Post" (.object [("status", .text "review")])]
    let z : Authorizer :=
      ⟨{ superuserRole := some "admin" }, ⟨[posts], none⟩, .empty, authenticated⟩
    let u : Actor := { Actor.ofId "u" with role := some "member" }
    let post : Value := .object [("owner", .text "u"), ("status", .text "draft")]
    let policy : Policy :=
      ⟨some "update", "Post", [("post", .plain fun _ => .ok (some post))], none⟩
    ∃ auth session, z.authorize (.ofActor (some u)) policy = .ok auth ∧
      auth.session = some session ∧ auth.ruling = ⟨.item, true, none⟩ ∧ auth.Coherent session := by
  intro posts z u post policy
  refine ⟨_, _, rfl, rfl, by decide +kernel, ?_⟩
  exact (@authorize_coherent z (.ofActor (some u)) policy _ _ rfl rfl).2.2

end Authorizer

/-! ### Abstaining without an item -/

/-- Whether a check on a value that was found is allowed: an object is an item, and with any other
value the check is about the bare type. -/
theorem Ability.can_ofValue_iff (a : Ability) (action type : String) (v : Value) :
    a.can action (.ofValue type v) ↔
      (∃ fields, v = .object fields ∧ a.can action (.item type fields)) ∨
      (∀ fields, v ≠ .object fields) ∧ a.can action (.bare type) := by
  cases v with
  | object fields => simp [Subject.ofValue]
  | _ => simp [Subject.ofValue]

namespace Authorizer

variable {z : Authorizer} {request : Request} {policy : Policy} {u : Actor}

/-- When the rules allow, by what was found of the first subject, where the configuration abstains
without an item. -/
theorem Rules.allowed_iff {a : Ability} {action type : String} {s t : Subjects} {ruling : Ruling}
    (abstains : z.config.abstainWithoutItem = true) (rules : z.Rules a action type s ruling t) :
    ruling.allowed ↔
      (a.verdict action type = .settled true ∧ ∀ fields, a.can action (.item type fields)) ∨
      (a.verdict action type = .needsItem ∧
        ∃ fields, s.primary.1 = .ok (some (.object fields)) ∧ a.can action (.item type fields)) ∨
      (a.verdict action type = .needsItem ∧
        ∃ v, s.primary.1 = .ok (some v) ∧ (∀ fields, v ≠ .object fields) ∧
          a.can action (.bare type)) := by
  cases rules with
  | noRules verdict => simp [verdict]
  | @typeLevel allowed verdict =>
    have items := Ability.can_item_of_settled verdict
    simp +contextual [verdict, items]
  | @item v verdict found =>
    show a.can action (.ofValue type v) ↔ _
    rw [Ability.can_ofValue_iff]
    simp [verdict, found]
  | unresolved verdict found => simp [verdict, found, abstains]

/-- What is allowed where the configuration abstains without an item: what the type settles, for
every item; what is found as an object, if it may be accessed as an item; but also any other value
that is found, if the bare type may be accessed, which no condition has been checked for. -/
theorem allowed_iff_of_abstaining {auth : Authorization}
    (abstains : z.config.abstainWithoutItem = true)
    (actor : z.findActor request = .ok (some u)) (ordinary : z.config.isSuperuser u = false)
    (ok : z.authorize request policy = .ok auth) :
    let a := z.abilityFor u policy
    let action := z.actionOf policy
    let type := policy.subject
    let first := (z.subjectsFor u request policy).primary.1
    let settled := a.verdict action type = .settled true ∧
      ∀ fields, a.can action (.item type fields)
    let verified := a.verdict action type = .needsItem ∧
      ∃ fields, first = .ok (some (.object fields)) ∧ a.can action (.item type fields)
    let unverified := a.verdict action type = .needsItem ∧
      ∃ v, first = .ok (some v) ∧ (∀ fields, v ≠ .object fields) ∧ a.can action (.bare type)
    (auth.ruling.allowed ↔ settled ∨ verified ∨ unverified) ∧
      ((∀ v, first = .ok (some v) → (∃ fields, v = .object fields) ∨ ¬a.can action (.bare type)) →
        auth.ruling.allowed → settled ∨ verified) := by
  intro a action type first settled verified unverified
  have exact_cases : auth.ruling.allowed ↔ settled ∨ verified ∨ unverified := by
    rw [authorize, actor] at ok
    obtain ⟨ruling, session, rfl, decides⟩ := decides_of_authorizeActor ok
    cases decides with
    | superuser bypass => simp [ordinary] at bypass
    | byRules _ rules => exact rules.allowed_iff abstains
  refine ⟨exact_cases, fun items allowed => ?_⟩
  rcases exact_cases.mp allowed with settled | verified | ⟨-, v, found, other, bare⟩
  · exact .inl settled
  · exact .inr verified
  · rcases items v found with ⟨fields, object⟩ | denied
    · exact absurd object (other fields)
    · exact absurd bare denied

/-- A member may update posts that are not in review, and the post that is found is a draft. -/
theorem allowed_iff_of_abstaining_draft :
    let posts : Permissions := .withRole .empty "member" fun _ =>
      [.can "update" "Post", .cannotWhen "update" "Post" (.object [("status", .text "review")])]
    let z : Authorizer := ⟨{ abstainWithoutItem := true }, ⟨[posts], none⟩, .empty, authenticated⟩
    let u : Actor := { Actor.ofId "u" with role := some "member" }
    let draft : Document := [("status", .text "draft")]
    let policy : Policy :=
      ⟨some "update", "Post", [("post", .plain fun _ => .ok (some (.object draft)))], none⟩
    ∃ auth, z.authorize (.ofActor (some u)) policy = .ok auth ∧ auth.ruling.allowed ∧
      (z.abilityFor u policy).can "update" (.item "Post" draft) := by
  intro posts z u draft policy
  have cases :=
    (@allowed_iff_of_abstaining z (.ofActor (some u)) policy u _ rfl rfl rfl rfl).1
  have draft_allowed : (z.abilityFor u policy).can "update" (.item "Post" draft) := by
    decide +kernel
  exact ⟨_, rfl, cases.mpr (.inr (.inl ⟨by decide +kernel, draft, rfl, draft_allowed⟩)),
    draft_allowed⟩

/-- A post is found as null: no post is allowed that is in review, nor is it known whether this one
is, and yet the update is allowed. -/
theorem null_allowed_of_abstaining :
    let posts : Permissions := .withRole .empty "member" fun _ =>
      [.can "update" "Post", .cannotWhen "update" "Post" (.object [("status", .text "review")])]
    let z : Authorizer := ⟨{ abstainWithoutItem := true }, ⟨[posts], none⟩, .empty, authenticated⟩
    let u : Actor := { Actor.ofId "u" with role := some "member" }
    let policy : Policy :=
      ⟨some "update", "Post", [("post", .plain fun _ => .ok (some .null))], none⟩
    z.config.isSuperuser u = false ∧
      (z.abilityFor u policy).verdict "update" "Post" = .needsItem ∧
      (z.subjectsFor u (.ofActor (some u)) policy).primary.1 = .ok (some .null) ∧
      (z.abilityFor u policy).can "update" (.item "Post" [("status", .text "review")]) = false ∧
      ∃ auth, z.authorize (.ofActor (some u)) policy = .ok auth ∧
        auth.ruling = ⟨.item, true, none⟩ := by
  intro posts z u policy
  refine ⟨rfl, by decide +kernel, rfl, by decide +kernel, _, rfl, ?_⟩
  decide +kernel

end Authorizer

end AccessRules

import AccessRules.Proofs.Authorizer.Decision
import AccessRules.Proofs.Subjects.History

/-! The subjects that a decision asks for, and its failures. A decision awaits a subject only where
an actor who is no superuser has rules that the type does not settle; it then runs the resolver of
the first subject and no other. Main statement: exactly so it does, and it fails exactly where the
search for the actor fails or that one resolver does. -/

namespace AccessRules

/-! ### The first subject -/

namespace Subjects

variable {c : Context} {resolvers : List (String × Resolver)}

theorem primary_fresh_cons (name : String) (resolver : Resolver)
    (rest : List (String × Resolver)) :
    (fresh c ((name, resolver) :: rest)).primary =
      ((resolver.outcome c 0).found name,
        (fresh c ((name, resolver) :: rest)).record 0 ⟨name, resolver, none⟩
          (resolver.outcome c 0)) := by
  have first : (fresh c ((name, resolver) :: rest)).entries[0]? = some ⟨name, resolver, none⟩ := rfl
  exact getAt_pending first rfl

/-- Asking for the first subject before any has been asked for runs its resolver, if there is one,
and no other. -/
theorem runs_primary_fresh :
    (fresh c resolvers).primary.2.runs = List.range (min 1 resolvers.length) := by
  cases resolvers with
  | nil => rfl
  | cons first rest =>
    have one : min 1 (first :: rest).length = 1 := by simp
    rw [one, primary_fresh_cons]
    rfl

theorem found_eq_error_iff {outcome : Outcome} {name : String} {e : AccessError} :
    outcome.found name = .error e ↔
      ∃ cause, outcome = .error cause ∧ e = .subjectResolution name cause := by
  cases outcome with
  | ok value => simp [Outcome.found]
  | error cause => simp [Outcome.found, eq_comm]

theorem primary_fresh_eq_error_iff {e : AccessError} :
    (fresh c resolvers).primary.1 = .error e ↔
      ∃ name resolver cause, resolvers.head? = some (name, resolver) ∧
        resolver.outcome c 0 = .error cause ∧ e = .subjectResolution name cause := by
  cases resolvers with
  | nil =>
    refine iff_of_false nofun ?_
    rintro ⟨name, resolver, cause, first, -⟩
    cases first
  | cons first rest =>
    obtain ⟨name, resolver⟩ := first
    rw [primary_fresh_cons, found_eq_error_iff]
    simp

/-- A failure comes from a run. -/
theorem runs_of_primary_fresh_eq_error {e : AccessError}
    (failed : (fresh c resolvers).primary.1 = .error e) :
    (fresh c resolvers).primary.2.runs = [0] := by
  obtain ⟨name, resolver, cause, first, -⟩ := primary_fresh_eq_error_iff.mp failed
  obtain ⟨rest, rfl⟩ := List.head?_eq_some_iff.mp first
  rw [primary_fresh_cons]
  rfl

end Subjects

/-! ### Failures -/

/-- Whether a decision rests on what was found of a subject, or on nothing having been found. -/
def Basis.awaited (basis : Basis) : Bool := basis == .item || basis == .unresolved

namespace Authorizer

variable {z : Authorizer} {request : Request} {policy : Policy} {u : Actor}

/-- The decision on a request depends on a subject: there is an actor, who is no superuser, and the
type does not settle what the actor may do. -/
def Awaits (z : Authorizer) (request : Request) (policy : Policy) (u : Actor) : Prop :=
  z.findActor request = .ok (some u) ∧ z.config.isSuperuser u = false ∧
    (z.abilityFor u policy).verdict (z.actionOf policy) policy.subject = .needsItem

theorem ruleWith_eq_error_iff {a : Ability} {action type : String} {s t : Subjects}
    {e : AccessError} :
    z.ruleWith a action type s = (.error e, t) ↔
      a.verdict action type = .needsItem ∧ s.primary = (.error e, t) := by
  unfold ruleWith
  cases a.verdict action type with
  | noRules => simp
  | settled allowed => simp
  | needsItem =>
    obtain ⟨found, after⟩ := s.primary
    cases found with
    | ok value => simp [Except.map]
    | error cause => simp [Except.map]

theorem authorizeActor_eq_error_iff {failure : Undecided} :
    z.authorizeActor u request policy = .error failure ↔
      z.config.isSuperuser u = false ∧ ∃ e t,
        z.ruleWith (z.abilityFor u policy) (z.actionOf policy) policy.subject
          (z.subjectsFor u request policy) = (.error e, t) ∧
        failure = ⟨e, t.searched⟩ := by
  unfold authorizeActor subjectsFor
  cases z.config.isSuperuser u with
  | true => simp
  | false =>
    simp only [Bool.false_eq_true, if_false, true_and]
    generalize z.ruleWith _ _ _ _ = decided
    obtain ⟨ruled, after⟩ := decided
    cases ruled with
    | ok ruling => simp
    | error e => simp [eq_comm]

theorem authorize_eq_error_iff {failure : Undecided} :
    z.authorize request policy = .error failure ↔
      (∃ cause, z.findActor request = .error cause ∧ failure = ⟨.actorResolution cause, []⟩) ∨
      ∃ u e t, z.Awaits request policy u ∧
        (z.subjectsFor u request policy).primary = (.error e, t) ∧ failure = ⟨e, t.searched⟩ := by
  unfold authorize
  cases actor : z.findActor request with
  | error cause => simp [Awaits, actor, eq_comm (a := failure)]
  | ok found =>
    cases found with
    | none => simp [Awaits, actor]
    | some u =>
      simp only [authorizeActor_eq_error_iff, ruleWith_eq_error_iff]
      simp [Awaits, actor, and_assoc]

/-! ### Decisions on a subject -/

theorem Rules.awaited_iff {a : Ability} {action type : String} {s t : Subjects} {ruling : Ruling}
    (rules : z.Rules a action type s ruling t) :
    (a.verdict action type = .needsItem ↔ ruling.basis.awaited) ∧
      t = if ruling.basis.awaited then s.primary.2 else s := by
  cases rules with
  | noRules verdict => simp [verdict, Basis.awaited]
  | typeLevel verdict => simp [verdict, Basis.awaited]
  | item verdict found => simp [verdict, Basis.awaited, Ability.ruling]
  | unresolved verdict found => simp [verdict, Basis.awaited]

/-- An authorization rests on a subject exactly where the decision awaited one. -/
theorem awaits_iff_basis {auth : Authorization} (ok : z.authorize request policy = .ok auth) :
    (∃ u, z.Awaits request policy u) ↔ auth.ruling.basis.awaited := by
  rcases authorize_cases ok with ⟨nobody, rfl⟩ | ⟨u, ruling, session, actor, rfl, decides⟩
  · simp [Awaits, nobody, Authorization.anonymous, Basis.awaited]
  · cases decides with
    | superuser bypass =>
      simp [Awaits, actor, bypass, Authorization.ofSession, Basis.awaited]
    | byRules ordinary rules =>
      simp [Awaits, actor, ordinary, Authorization.ofSession, rules.awaited_iff.1]

theorem runs_of_authorize {auth : Authorization} {session : Session}
    (ok : z.authorize request policy = .ok auth) (actor : auth.session = some session) :
    session.subjects.runs =
      if auth.ruling.basis.awaited then List.range (min 1 policy.resolvers.length) else [] := by
  obtain ⟨u, ruling, rfl, decides⟩ := authorize_session ok actor
  cases decides with
  | superuser bypass => rfl
  | byRules ordinary rules =>
    show Subjects.runs _ = if ruling.basis.awaited then _ else _
    rw [rules.awaited_iff.2]
    split
    · exact Subjects.runs_primary_fresh
    · rfl

/-- The search for the actor has failed, or the decision awaited a subject and the resolver of the
first, the only one that has run, has. -/
def Fails (z : Authorizer) (request : Request) (policy : Policy) (failure : Undecided) : Prop :=
  (∃ cause, z.findActor request = .error cause ∧ failure = ⟨.actorResolution cause, []⟩) ∨
  ∃ u name resolver cause, z.Awaits request policy u ∧
    policy.resolvers.head? = some (name, resolver) ∧
    resolver.outcome ⟨request, z.services, u⟩ 0 = .error cause ∧
    let left := (z.subjectsFor u request policy).primary.2
    left.runs = [0] ∧ failure = ⟨.subjectResolution name cause, left.searched⟩

theorem fails_iff {failure : Undecided} :
    z.authorize request policy = .error failure ↔ z.Fails request policy failure := by
  rw [authorize_eq_error_iff]
  refine or_congr_right (exists_congr fun u => ⟨?_, ?_⟩)
  · rintro ⟨e, t, awaits, primary, rfl⟩
    have failed := congrArg Prod.fst primary
    obtain ⟨name, resolver, cause, first, outcome, rfl⟩ :=
      Subjects.primary_fresh_eq_error_iff.mp failed
    refine ⟨name, resolver, cause, awaits, first, outcome, ?_, ?_⟩
    · exact Subjects.runs_of_primary_fresh_eq_error failed
    · rw [primary]
  · rintro ⟨name, resolver, cause, awaits, first, outcome, -, rfl⟩
    refine ⟨.subjectResolution name cause, _, awaits, Prod.ext ?_ rfl, rfl⟩
    exact Subjects.primary_fresh_eq_error_iff.mpr ⟨name, resolver, cause, first, outcome, rfl⟩

/-- How a decision deals with the subjects of its request. -/
structure Sparing (z : Authorizer) (request : Request) (policy : Policy) : Prop where
  /-- A subject is resolved exactly where one is awaited: the first, if there is one. -/
  resolves : ∀ auth, z.authorize request policy = .ok auth →
    ((∃ u, z.Awaits request policy u) ↔ auth.ruling.basis.awaited) ∧
    ∀ session, auth.session = some session → session.subjects.runs =
      if auth.ruling.basis.awaited then List.range (min 1 policy.resolvers.length) else []
  fails : ∀ failure, z.authorize request policy = .error failure ↔ z.Fails request policy failure
  /-- Where neither search fails there is an answer, whatever the rules are. -/
  answers : (∀ cause, z.findActor request ≠ .error cause) →
    (∀ u name resolver cause, z.findActor request = .ok (some u) →
      policy.resolvers.head? = some (name, resolver) →
      resolver.outcome ⟨request, z.services, u⟩ 0 ≠ .error cause) →
    ∃ auth, z.authorize request policy = .ok auth

/-- Deciding a request resolves its first subject where it has to and no other subject ever, and it
fails for want of the actor or of that subject only. -/
theorem authorize_sparing (z : Authorizer) (request : Request) (policy : Policy) :
    z.Sparing request policy := by
  refine ⟨fun auth ok => ⟨awaits_iff_basis ok, fun session => runs_of_authorize ok⟩,
    fun failure => fails_iff, fun found outcome => ?_⟩
  cases decided : z.authorize request policy with
  | ok auth => exact ⟨auth, rfl⟩
  | error failure =>
    rcases fails_iff.mp decided with ⟨cause, failed, -⟩ | ⟨u, name, resolver, cause, awaits, h⟩
    · exact absurd failed (found cause)
    · exact absurd h.2.1 (outcome u name resolver cause awaits.1 h.1)

/-- Members may update their own posts, but the post cannot be searched for; the blog is not asked
for then. -/
theorem authorize_sparing_busy :
    let posts : Permissions := .withRole .empty "member" fun u =>
      [.canWhen "update" "Post" (.object [("owner", .text u.id)])]
    let z : Authorizer := ⟨{}, ⟨[posts], none⟩, .empty, authenticated⟩
    let u : Actor := { Actor.ofId "u" with role := some "member" }
    let request : Request := .ofActor (some u)
    let policy : Policy := ⟨some "update", "Post",
      [("post", .plain fun _ => .error (.other "busy")), ("blog", .plain fun _ => .ok none)], none⟩
    z.Awaits request policy u ∧
      z.authorize request policy =
        .error ⟨.subjectResolution "post" (.other "busy"), ["post"]⟩ := by
  intro posts z u request policy
  have awaits : z.Awaits request policy u := ⟨rfl, rfl, by decide +kernel⟩
  have failure := (authorize_sparing z request policy).fails
    ⟨.subjectResolution "post" (.other "busy"), ["post"]⟩
  exact ⟨awaits, failure.mpr (.inr ⟨u, "post", _, .other "busy", awaits, rfl, rfl, rfl, rfl⟩)⟩

end Authorizer

end AccessRules

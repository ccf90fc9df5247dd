import AccessRules.Proofs.Authorizer.Decision
import AccessRules.Proofs.Subjects.History

/-! What an endpoint finds among the subjects of a request that has been decided. The decision may
have asked for the first subject already; its resolver is not run again, whichever calls follow. -/

namespace AccessRules

namespace Subjects

/-! ### The name of the first subject -/

/-- Whether a name list lets `primaryName` stand for the first subject: the first goes by it, or no
subject does. -/
def Leads (names : List String) : Prop := primaryName ∈ names → names.head? = some primaryName

theorem place?_primaryName (s : Subjects) :
    s.place? primaryName = some ((s.names.idxOf? primaryName).getD 0) := by
  rw [place?]
  cases s.names.idxOf? primaryName with
  | some place => rfl
  | none => rfl

theorem get_primaryName (s : Subjects) :
    s.get primaryName = s.getAt ((s.names.idxOf? primaryName).getD 0) := by
  rw [get, place?_primaryName]

theorem idxOf?_of_leads {names : List String} (leads : Leads names) :
    (names.idxOf? primaryName).getD 0 = 0 := by
  by_cases called : primaryName ∈ names
  · have head := leads called
    cases names with
    | nil => cases head
    | cons first rest =>
      obtain rfl := Option.some.inj head
      rw [List.idxOf?_cons, if_pos (beq_self_eq_true _)]
      rfl
  · rw [List.idxOf?_eq_none_iff.mpr called]
    rfl

theorem get_eq_primary {s : Subjects} (leads : Leads s.names) : s.get primaryName = s.primary := by
  rw [get_primaryName, idxOf?_of_leads leads]
  rfl

end Subjects

/-- The authorization after some calls on its subjects. -/
def Authorization.afterAll (auth : Authorization) (calls : List Subjects.Call) : Authorization :=
  { auth with
    session := auth.session.map fun s => { s with subjects := s.subjects.afterAll calls } }

/-- Asking the subjects of a session what does not change them. -/
theorem Authorization.ask_of_session {auth : Authorization} {session : Session} {found : Found}
    {question : Subjects → Found × Subjects} (actor : auth.session = some session)
    (answer : question session.subjects = (found, session.subjects)) :
    auth.ask question = (found, auth) := by
  cases auth
  obtain rfl := actor
  rw [ask]
  simp only [answer]
  rfl

namespace Authorizer

variable {z : Authorizer} {request : Request} {policy : Policy} {u : Actor}

theorem names_subjectsFor :
    (z.subjectsFor u request policy).names = policy.resolvers.map (·.1) := by
  rw [Subjects.names_eq, subjectsFor, Subjects.resolvers_fresh]

/-- A ruling on an item is made on the first subject, which is kept. -/
theorem ruling_on_item {auth : Authorization} (ok : z.authorize request policy = .ok auth)
    (item : auth.ruling.basis = .item) :
    ∃ u v session, z.findActor request = .ok (some u) ∧ auth.session = some session ∧
      (z.subjectsFor u request policy).primary.1 = .ok (some v) ∧
      auth.ruling =
        (z.abilityFor u policy).ruling .item (z.actionOf policy) (.ofValue policy.subject v) ∧
      (z.subjectsFor u request policy).Later session.subjects ∧
      session.subjects.Holds 0 (.ok (some v)) := by
  rcases authorize_cases ok with ⟨-, rfl⟩ | ⟨u, ruling, session, found_actor, rfl, decides⟩
  · cases item
  · cases decides with
    | superuser bypass => cases item
    | byRules ordinary rules =>
      cases rules with
      | noRules verdict => cases item
      | typeLevel verdict => cases item
      | unresolved verdict found => cases item
      | @item v verdict found =>
        exact ⟨u, v, _, found_actor, rfl, found, rfl, Subjects.later_getAt _ 0,
          Subjects.holds_of_getAt found⟩

/-- The name of the first subject stands for the first subject that is called so, and for the first
of all if none is, so a later subject of that name takes it from the first. Where that is the same
subject, asking by the name is asking for the first, and after a ruling on an item it gets the value
that the ruling was made on. -/
theorem subjectNamed_primaryName {names : List String} :
    (∀ s : Subjects, s.names = names →
      s.get Subjects.primaryName = s.getAt ((names.idxOf? Subjects.primaryName).getD 0)) ∧
    (Subjects.Leads names →
      (∀ s : Subjects, s.names = names → s.get Subjects.primaryName = s.primary) ∧
      ∀ (z : Authorizer) request policy auth, policy.resolvers.map (·.1) = names →
        z.authorize request policy = .ok auth → auth.ruling.basis = .item →
        ∃ u v, z.findActor request = .ok (some u) ∧
          (z.subjectsFor u request policy).primary.1 = .ok (some v) ∧
          auth.ruling =
            (z.abilityFor u policy).ruling .item (z.actionOf policy) (.ofValue policy.subject v) ∧
          ∀ calls, (auth.afterAll calls).subjectNamed Subjects.primaryName =
            (.ok (some v), auth.afterAll calls)) := by
  refine ⟨?_, fun leads => ⟨?_, ?_⟩⟩
  · rintro s rfl
    exact s.get_primaryName
  · rintro s rfl
    exact Subjects.get_eq_primary leads
  · rintro z request policy auth rfl ok item
    obtain ⟨u, v, session, found_actor, actor, found, ruling, decided, holds⟩ :=
      ruling_on_item ok item
    refine ⟨u, v, found_actor, found, ruling, fun calls => ?_⟩
    have later := Subjects.later_afterAll session.subjects calls
    have names : (session.subjects.afterAll calls).names = policy.resolvers.map (·.1) :=
      (decided.trans later).names.trans names_subjectsFor
    have named : (session.subjects.afterAll calls).get Subjects.primaryName =
        (.ok (some v), session.subjects.afterAll calls) := by
      rw [Subjects.get_eq_primary (names ▸ leads)]
      exact (holds.later later).getAt
    have actor : (auth.afterAll calls).session =
        some { session with subjects := session.subjects.afterAll calls } := by
      rw [Authorization.afterAll, actor]
      rfl
    exact Authorization.ask_of_session actor named

/-- The post that is found first may be updated by its owner; nothing is called as the first is. -/
theorem subjectNamed_primaryName_post :
    let posts : Permissions := .withRole .empty "member" fun u =>
      [.canWhen "update" "Post" (.object [("owner", .text u.id)])]
    let z : Authorizer := ⟨{}, ⟨[posts], none⟩, .empty, authenticated⟩
    let u : Actor := { Actor.ofId "u" with role := some "member" }
    let post : Value := .object [("owner", .text "u")]
    let policy : Policy := ⟨some "update", "Post",
      [("post", .plain fun _ => .ok (some post)), ("blog", .plain fun _ => .ok none)], none⟩
    Subjects.Leads ["post", "blog"] ∧
      ∃ auth, z.authorize (.ofActor (some u)) policy = .ok auth ∧ auth.ruling.basis = .item ∧
        ∃ v, auth.subjectNamed Subjects.primaryName = (.ok (some v), auth) := by
  intro posts z u post policy
  have leads : Subjects.Leads ["post", "blog"] := by
    intro called
    revert called
    decide
  have on_item :=
    (subjectNamed_primaryName.2 leads).2 z (.ofActor (some u)) policy _ rfl rfl (by decide +kernel)
  obtain ⟨_, v, _, _, _, named⟩ := on_item
  exact ⟨leads, _, rfl, by decide +kernel, v, named []⟩

/-- A draft is found first and its update allowed, but the name of the first subject stands for the
second, a post in review, which may not be updated. -/
theorem primaryName_passes_over_first :
    let posts : Permissions := .withRole .empty "member" fun _ =>
      [.can "update" "Post", .cannotWhen "update" "Post" (.object [("status", .text "review")])]
    let z : Authorizer := ⟨{}, ⟨[posts], none⟩, .empty, authenticated⟩
    let u : Actor := { Actor.ofId "u" with role := some "member" }
    let draft : Document := [("status", .text "draft")]
    let review : Document := [("status", .text "review")]
    let policy : Policy := ⟨some "update", "Post",
      [("post", .plain fun _ => .ok (some (.object draft))),
        ("subject", .plain fun _ => .ok (some (.object review)))], none⟩
    let s := z.subjectsFor u (.ofActor (some u)) policy
    s.primary.1 = .ok (some (.object draft)) ∧ s.primary.2.searched = ["post"] ∧
      (s.get "subject").1 = .ok (some (.object review)) ∧
      (s.get "subject").2.searched = ["subject"] ∧
      ∃ auth, z.authorize (.ofActor (some u)) policy = .ok auth ∧
        auth.ruling = ⟨.item, true, none⟩ ∧
        (auth.subjectNamed "subject").1 = .ok (some (.object review)) ∧
        (z.abilityFor u policy).can "update" (.item "Post" review) = false := by
  intro posts z u draft review policy s
  refine ⟨rfl, rfl, rfl, rfl, _, rfl, by decide +kernel, rfl, by decide +kernel⟩

end Authorizer

namespace Subjects

/-! ### Histories -/

/-- The subjects of a request where an endpoint may begin to ask for them: before any has been asked
for, or as the decision on the request leaves them. -/
inductive Begun : Subjects → Prop
  | fresh (context : Context) (resolvers : List (String × Resolver)) :
      Begun (fresh context resolvers)
  | decided {z : Authorizer} {request : Request} {policy : Policy} {auth : Authorization}
      {session : Session} (ok : z.authorize request policy = .ok auth)
      (actor : auth.session = some session) : Begun session.subjects

theorem Begun.kept {s : Subjects} (begun : s.Begun) : s.Kept := by
  cases begun with
  | fresh context resolvers => exact kept_fresh context resolvers
  | decided ok actor =>
    obtain ⟨u, ruling, rfl, decides⟩ := Authorizer.authorize_session ok actor
    cases decides with
    | superuser bypass => exact kept_fresh _ _
    | byRules ordinary rules =>
      cases rules with
      | noRules verdict => exact kept_fresh _ _
      | typeLevel verdict => exact kept_fresh _ _
      | item verdict found => exact (kept_fresh _ _).getAt 0
      | unresolved verdict found => exact (kept_fresh _ _).getAt 0

/-- After any calls the subjects are the ones that the endpoint began with, with what has been found
since, and no resolver has run twice. -/
theorem runsOnce_afterAll {start : Subjects} (begun : start.Begun) (calls : List Call) :
    start.Later (start.afterAll calls) ∧ (start.afterAll calls).RunsOnce :=
  ⟨later_afterAll start calls, (begun.kept.afterAll calls).runsOnce⟩

/-- The first of two subjects of one name fails, as it would not if it were searched for once more;
the owner needs a service that is not there. -/
theorem runsOnce_afterAll_repeated :
    let retry : Resolver := .direct fun _ earlier =>
      if earlier = 0 then .error (.other "busy") else .ok none
    let start : Subjects := .fresh ⟨.ofActor none, .empty, .ofId ""⟩
      [("post", retry), ("post", retry), ("owner", .backed "users" "User" fun _ _ => .ok none)]
    let calls : List Call :=
      [.all, .ask (.named "post"), .isResolved "owner", .ask (.named "owner"), .ask .first]
    (start.afterAll calls).runs = [0, 2] ∧ (start.afterAll calls).RunsOnce := by
  intro retry start calls
  exact ⟨rfl, (runsOnce_afterAll (.fresh _ _) calls).2⟩

end Subjects

end AccessRules

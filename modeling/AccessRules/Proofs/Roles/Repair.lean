import AccessRules.Proofs.Roles.Expansion
import AccessRules.Proofs.RuleStore.Lookup
import Mathlib.Data.List.Forall2

/-! Conditions that are not objects, and what becomes of the rules when they are put right. The two
programs are run side by side: the drafts keep applying the same roles, and whatever the rules of
the faulty one allow, those of the repaired one allow too. A grant that was dropped comes in, and a
denial that held of everything holds of less. -/

namespace AccessRules

/-! ### Repairs -/

/-- A step, or one like it with an object in place of a condition that is none. -/
inductive Step.Repaired : Step → Step → Prop
  | same (s : Step) : Repaired s s
  | grant {action subject : String} {v : Value} (faulty : ∀ fields, v ≠ .object fields)
      (condition : Document) :
      Repaired (.canWhen action subject v) (.canWhen action subject (.object condition))
  | denial {action subject : String} {v : Value} (faulty : ∀ fields, v ≠ .object fields)
      (condition : Document) :
      Repaired (.cannotWhen action subject v) (.cannotWhen action subject (.object condition))

/-- The same roles have handlers, whose programs for an actor differ by repairs. -/
def Permissions.Repaired (u : Actor) (p q : Permissions) : Prop :=
  List.Forall₂ (fun a b => a.1 = b.1 ∧ List.Forall₂ Step.Repaired (a.2 u) (b.2 u))
    p.handlers q.handlers

namespace Permissions

variable {u : Actor}

theorem program_cons (entry : String × Handler) (handlers : List (String × Handler))
    (role : String) :
    program ⟨entry :: handlers⟩ role u =
      if role == entry.1 then entry.2 u else program ⟨handlers⟩ role u := by
  rw [program, handler?, List.lookup_cons]
  cases role == entry.1 <;> rfl

theorem Repaired.program {p q : Permissions} (repaired : p.Repaired u q) (role : String) :
    List.Forall₂ Step.Repaired (p.program role u) (q.program role u) := by
  obtain ⟨handlers⟩ := p
  obtain ⟨others⟩ := q
  have pairs : List.Forall₂ _ handlers others := repaired
  induction pairs with
  | nil => exact .nil
  | @cons a b handlers others ab rest ih =>
    obtain ⟨same, programs⟩ := ab
    rw [program_cons, program_cons, same]
    split
    · exact programs
    · exact ih rest

theorem Repaired.programs {visited others : List Permissions}
    (repaired : List.Forall₂ (Repaired u) visited others) (role : String) :
    List.Forall₂ Step.Repaired (visited.flatMap (·.program role u))
      (others.flatMap (·.program role u)) :=
  List.rel_flatMap repaired fun _ _ pq => pq.program role

end Permissions

theorem nestingBound_of_repaired {u : Actor} {sources others : List Permissions}
    (repaired : List.Forall₂ (Permissions.Repaired u) sources others) :
    nestingBound sources = nestingBound others := by
  have handlers := List.rel_flatMap repaired fun _ _ pq => pq
  rw [nestingBound, nestingBound, handlers.length_eq]

/-! ### What rules allow -/

namespace Ability

variable (skip : Bool) (action : String) (subject : Subject)

/-- Reasons play no part in what is allowed. -/
theorem can_unexplained (rules : List Rule) :
    can ⟨rules.map Rule.unexplained, skip⟩ action subject = can ⟨rules, skip⟩ action subject := by
  induction rules using List.reverseRecOn with
  | nil => rfl
  | append_singleton rules r ih =>
    rw [List.map_append, List.map_singleton, can_concat, can_concat, ih]
    rfl

theorem can_explain (d : Draft) (reason : String) :
    can ⟨(d.explain reason).rules, skip⟩ action subject = can ⟨d.rules, skip⟩ action subject := by
  have same := (Draft.gains_explain d reason).rules
  rw [List.append_nil] at same
  rw [← can_unexplained, same, can_unexplained]

end Ability

/-- Another draft applies the same roles, and its rules allow at least as much. -/
structure Draft.Within (skip : Bool) (d e : Draft) : Prop where
  applying : e.applying = d.applying
  allowed : ∀ action subject, Ability.can ⟨d.rules, skip⟩ action subject →
    Ability.can ⟨e.rules, skip⟩ action subject

namespace Draft

variable {skip : Bool} {d e : Draft}

theorem Within.register (within : d.Within skip e) (r : Rule) :
    (d.register r).Within skip (e.register r) := by
  refine ⟨within.applying, fun action subject allowed => ?_⟩
  simp only [Draft.register, Ability.can_concat] at allowed ⊢
  split
  case isTrue decided => rwa [if_pos decided] at allowed
  case isFalse undecided =>
    rw [if_neg undecided] at allowed
    exact within.allowed action subject allowed

/-- A grant on one side only. -/
theorem Within.register_grant (within : d.Within skip e) {r : Rule} (grants : r.effect = .allow) :
    d.Within skip (e.register r) := by
  refine ⟨within.applying, fun action subject allowed => ?_⟩
  simp only [Draft.register, Ability.can_concat]
  split
  case isTrue => rw [grants]; rfl
  case isFalse => exact within.allowed action subject allowed

/-- A denial of everything on one side, and of what meets a condition on the other. -/
theorem Within.register_denial (within : d.Within skip e) (action type : String)
    (condition : Document) :
    (d.register (.deny action type)).Within skip
      (e.register ((Rule.deny action type).under condition)) := by
  refine ⟨within.applying, fun other subject allowed => ?_⟩
  simp only [Draft.register, Ability.can_concat] at allowed ⊢
  have about : ((Rule.deny action type).under condition).appliesTo other subject.type =
      (Rule.deny action type).appliesTo other subject.type := rfl
  have decides : (Rule.deny action type).decides subject skip = true :=
    Rule.decides_unconditioned subject (by cases skip <;> rfl)
  rw [decides, Bool.and_true] at allowed
  rw [about]
  cases applies : (Rule.deny action type).appliesTo other subject.type with
  | true =>
    rw [applies, if_pos rfl] at allowed
    cases allowed
  | false =>
    rw [applies, if_neg Bool.false_ne_true] at allowed
    exact within.allowed other subject allowed

theorem Within.explain (within : d.Within skip e) (reason : String) :
    (d.explain reason).Within skip (e.explain reason) := by
  refine ⟨?_, fun action subject => ?_⟩
  · rw [(gains_explain e reason).applying, (gains_explain d reason).applying, within.applying]
  · rw [Ability.can_explain, Ability.can_explain]
    exact within.allowed action subject

/-! ### Side by side -/

theorem step_faulty_grant (extend : String → Draft → Draft) {action subject : String} {v : Value}
    (faulty : ∀ fields, v ≠ .object fields) :
    step extend d (.canWhen action subject v) = { d with last := none } := by
  cases v with
  | object fields => exact absurd rfl (faulty fields)
  | _ => rfl

theorem step_faulty_denial (extend : String → Draft → Draft) {action subject : String} {v : Value}
    (faulty : ∀ fields, v ≠ .object fields) :
    step extend d (.cannotWhen action subject v) = d.register (.deny action subject) := by
  cases v with
  | object fields => exact absurd rfl (faulty fields)
  | _ => rfl

theorem Within.step {extend other : String → Draft → Draft} {s t : Step}
    (extends_within : ∀ role d e, d.Within skip e → (extend role d).Within skip (other role e))
    (within : d.Within skip e) (repaired : s.Repaired t) :
    (step extend d s).Within skip (step other e t) := by
  cases repaired with
  | grant faulty condition =>
    rw [step_faulty_grant extend faulty]
    have dropped : Draft.Within skip { d with last := none } e := ⟨within.applying, within.allowed⟩
    exact dropped.register_grant rfl
  | denial faulty condition =>
    rw [step_faulty_denial extend faulty]
    exact within.register_denial _ _ condition
  | same =>
    cases s with
    | can action subject => exact within.register _
    | cannot action subject => exact within.register _
    | because reason => exact within.explain reason
    | extend role => exact extends_within role d e within
    | canWhen action subject condition =>
      cases condition with
      | object fields => exact within.register _
      | _ => exact ⟨within.applying, within.allowed⟩
    | cannotWhen action subject condition =>
      cases condition with
      | object fields => exact within.register _
      | _ => exact within.register _

/-- Steps in pairs that keep one draft within the other, taken in order. -/
theorem Within.foldl {α : Type} {R : α → α → Prop} {run other : Draft → α → Draft}
    {xs ys : List α} (within : d.Within skip e) (pairs : List.Forall₂ R xs ys)
    (step : ∀ d e x y, R x y → d.Within skip e → (run d x).Within skip (other e y)) :
    (xs.foldl run d).Within skip (ys.foldl other e) :=
  List.rel_foldl (fun d e within x y pair => step d e x y pair within) within pairs

theorem Within.apply {u : Actor} {sources others : List Permissions}
    (sources_repaired : List.Forall₂ (Permissions.Repaired u) sources others) (depth : Nat)
    {visited visited' : List Permissions}
    (repaired : List.Forall₂ (Permissions.Repaired u) visited visited') (role : String)
    (within : d.Within skip e) :
    (apply u sources depth visited role d).Within skip (apply u others depth visited' role e) := by
  induction depth generalizing visited visited' role d e with
  | zero => exact within
  | succ depth ih =>
    rw [Draft.apply, Draft.apply, within.applying]
    split
    case isTrue => exact within
    case isFalse =>
      have entered : Draft.Within skip { d with applying := role :: d.applying }
          { e with applying := role :: d.applying } := ⟨rfl, within.allowed⟩
      have run := entered.foldl (Permissions.Repaired.programs repaired role)
        fun d e s t repaired within =>
          within.step (fun role d e within => ih sources_repaired role within) repaired
      exact ⟨congrArg List.tail run.applying, run.allowed⟩

theorem within_draftFor {u : Actor} {sources others : List Permissions} (skip : Bool)
    (repaired : List.Forall₂ (Permissions.Repaired u) sources others) :
    (draftFor u sources).Within skip (draftFor u others) := by
  have start : Draft.empty.Within skip Draft.empty := ⟨rfl, fun _ _ allowed => allowed⟩
  have roles : List.Forall₂ Eq u.effectiveRoles u.effectiveRoles := List.forall₂_refl _
  unfold draftFor
  rw [nestingBound_of_repaired repaired]
  refine (start.foldl repaired fun d e p q pq within => ?_).foldl roles ?_
  · have single := List.Forall₂.cons pq .nil
    exact (within.apply repaired _ single everyone).apply repaired _ single everyAlias
  · rintro d e role _ rfl within
    exact within.apply repaired _ repaired role

end Draft

/-- Whatever is allowed by programs with conditions that are not objects is allowed when any
objects take the place of those conditions. -/
theorem can_of_repaired {u : Actor} {sources others : List Permissions}
    (repaired : List.Forall₂ (Permissions.Repaired u) sources others) (skipConditions : Bool)
    (action : String) (subject : Subject)
    (allowed : (buildAbility u sources skipConditions).can action subject) :
    (buildAbility u others skipConditions).can action subject :=
  (Draft.within_draftFor skipConditions repaired).allowed action subject allowed

/-- An author is an editor too, who may update what is theirs; of the author's own rules one grant
and one denial have conditions that are not objects. -/
theorem can_of_repaired_author :
    let program (denied granted : Value) : List Step :=
      [.cannotWhen "update" "Post" denied, .canWhen "update" "Post" granted, .extend "editor"]
    let sources (denied granted : Value) : List Permissions :=
      [⟨[("author", fun _ => program denied granted),
        ("editor", fun u => [.canWhen "update" "Post" (.object [("owner", .text u.id)])])]⟩]
    let u : Actor := { Actor.ofId "u" with role := some "author" }
    let faulty := sources (.text "review") .null
    let repaired := sources (.object [("status", .text "review")]) (.object [])
    let post : Subject := .item "Post" [("owner", .text "u")]
    List.Forall₂ (Permissions.Repaired u) faulty repaired ∧
      (buildAbility u faulty false).can "update" post ∧
      (buildAbility u repaired false).can "update" post := by
  intro program sources u faulty repaired post
  have text : ∀ fields, Value.text "review" ≠ .object fields := nofun
  have null : ∀ fields, Value.null ≠ .object fields := nofun
  have steps : List.Forall₂ Step.Repaired (program (.text "review") .null)
      (program (.object [("status", .text "review")]) (.object [])) :=
    .cons (.denial text _) (.cons (.grant null _) (.cons (.same _) .nil))
  have handlers : List.Forall₂ (Permissions.Repaired u) faulty repaired :=
    .cons (.cons ⟨rfl, steps⟩ (.cons ⟨rfl, .cons (.same _) .nil⟩ .nil)) .nil
  have allowed : (buildAbility u faulty false).can "update" post := by decide +kernel
  exact ⟨handlers, allowed, can_of_repaired handlers false "update" post allowed⟩

end AccessRules

import AccessRules.Proofs.Rule.Storage
import AccessRules.Roles
import Mathlib.Data.Finset.Card
import Mathlib.Data.Finset.SDiff

/-! The rules of an actor as an expansion of roles. A role stands for the rules of its handlers,
each extended role for its own in place, and a role inside itself for nothing. Building takes the
steps one by one into a draft; the main statement is that it registers the rules of the expansion
in order, reasons aside, however the roles extend each other. So every rule of an actor is made from
a step, and is read back when it was stored. -/

namespace AccessRules

/-- The rule without its reason. -/
def Rule.unexplained (r : Rule) : Rule := { r with reason := none }

/-! ### Expansion -/

/-- The rules of a step, given those of the roles that it may extend: an empty condition is none, a
grant with a condition that is not an object is dropped and a denial with one is unconditional. -/
def Step.contribution (extended : String → List Rule) : Step → List Rule
  | can action subject => [⟨action, subject, .allow, none, none⟩]
  | canWhen action subject (.object []) => [⟨action, subject, .allow, none, none⟩]
  | canWhen action subject (.object condition) =>
    [⟨action, subject, .allow, some (.ofDocument condition), none⟩]
  | canWhen _ _ _ => []
  | cannot action subject => [⟨action, subject, .deny, none, none⟩]
  | cannotWhen action subject (.object []) => [⟨action, subject, .deny, none, none⟩]
  | cannotWhen action subject (.object condition) =>
    [⟨action, subject, .deny, some (.ofDocument condition), none⟩]
  | cannotWhen action subject _ => [⟨action, subject, .deny, none, none⟩]
  | because _ => []
  | extend role => extended role

namespace Permissions

/-- The roles for which some source has a handler. -/
def handled (sources : List Permissions) : Finset String :=
  ((sources.flatMap (·.handlers)).map (·.1)).toFinset

theorem handled_append (sources others : List Permissions) :
    handled (sources ++ others) = handled sources ∪ handled others := by
  rw [handled, List.flatMap_append, List.map_append, List.toFinset_append]
  rfl

/-- The steps that a source has for a role of an actor: those of its first handler for the role, and
none without a handler. -/
def steps (p : Permissions) (u : Actor) (role : String) : List Step :=
  match p.handlers.find? fun entry => entry.1 = role with
  | some (_, handler) => handler u
  | none => []

theorem program_eq_steps (p : Permissions) (u : Actor) (role : String) :
    p.program role u = p.steps u role := by
  rw [program, handler?, steps]
  induction p.handlers with
  | nil => rfl
  | cons entry rest ih =>
    obtain ⟨other, handler⟩ := entry
    by_cases same : other = role
    · subst same
      simp
    · have differs : (role == other) = false := beq_false_of_ne (Ne.symm same)
      rw [List.lookup_cons, differs, List.find?_cons_of_neg (by simpa using same)]
      exact ih

theorem mem_handled_of_mem_steps {sources : List Permissions} {u : Actor} {role : String}
    {step : Step} (h : step ∈ sources.flatMap (·.steps u role)) : role ∈ handled sources := by
  obtain ⟨p, source, step_mem⟩ := List.mem_flatMap.mp h
  unfold steps at step_mem
  split at step_mem
  case h_1 other handler found =>
    have same : other = role := by simpa using List.find?_some found
    have mem : (other, handler) ∈ p.handlers := List.mem_of_find?_eq_some found
    rw [same] at mem
    exact List.mem_toFinset.mpr (List.mem_map.mpr ⟨_, List.mem_flatMap.mpr ⟨p, source, mem⟩, rfl⟩)
  case h_2 => simp at step_mem

theorem mem_handled_of_mem_program {sources : List Permissions} {u : Actor} {role : String}
    {step : Step} (h : step ∈ sources.flatMap (·.program role u)) : role ∈ handled sources := by
  simp only [program_eq_steps] at h
  exact mem_handled_of_mem_steps h

/-- With one more role being applied, fewer that have handlers are not. -/
theorem card_handled_lt {visited sources : Finset String} {role : String} {applying : List String}
    (subset : sources ⊆ visited) (mem : role ∈ visited) (fresh : role ∉ applying) :
    (sources \ (role :: applying).toFinset).card < (visited \ applying.toFinset).card := by
  apply Finset.card_lt_card
  rw [Finset.ssubset_iff_of_subset]
  · refine ⟨role, ?_, ?_⟩
    · simp [mem, fresh]
    · simp
  · intro other h
    simp only [List.toFinset_cons, Finset.mem_sdiff, Finset.mem_insert, not_or] at h ⊢
    exact ⟨subset h.1, h.2.2⟩

end Permissions

open Permissions in
/-- The rules of a role from the visited sources, while other roles are being applied. A role that
is extended is looked up in all sources. Only a role with a handler has steps, and it counts no more
once it is applied. -/
def expansion (u : Actor) (sources visited : List Permissions) (role : String)
    (applying : List String) : List Rule :=
  if role ∈ applying then []
  else (visited.flatMap (·.steps u role)).attach.flatMap fun ⟨step, _⟩ =>
    step.contribution fun extended => expansion u sources sources extended (role :: applying)
termination_by (handled (sources ++ visited) \ applying.toFinset).card
decreasing_by
  have handled_role := mem_handled_of_mem_steps ‹step ∈ _›
  rw [handled_append, handled_append, Finset.union_self]
  exact card_handled_lt Finset.subset_union_left (Finset.mem_union_right _ handled_role) ‹_›

section Expansion

variable (u : Actor) (sources visited : List Permissions) {role : String} {applying : List String}

theorem expansion_applying (h : role ∈ applying) :
    expansion u sources visited role applying = [] := by
  rw [expansion, if_pos h]

theorem expansion_fresh (h : role ∉ applying) :
    expansion u sources visited role applying =
      (visited.flatMap (·.steps u role)).flatMap
        (Step.contribution (expansion u sources sources · (role :: applying))) := by
  rw [expansion, if_neg h]
  simp

end Expansion

/-! ### Building -/

/-- A later draft applies the same roles as an earlier one and has more rules, which are given
without their reasons. -/
structure Draft.Gains (before after : Draft) (rules : List Rule) : Prop where
  applying : after.applying = before.applying
  rules : after.rules.map Rule.unexplained = before.rules.map Rule.unexplained ++ rules

namespace Draft

theorem Gains.refl (d : Draft) : d.Gains d [] := ⟨rfl, (List.append_nil _).symm⟩

theorem Gains.trans {d1 d2 d3 : Draft} {rules others : List Rule} (h1 : d1.Gains d2 rules)
    (h2 : d2.Gains d3 others) : d1.Gains d3 (rules ++ others) := by
  refine ⟨h2.applying.trans h1.applying, ?_⟩
  rw [h2.rules, h1.rules, List.append_assoc]

theorem gains_register (d : Draft) {r : Rule} (h : r.reason = none) :
    d.Gains (d.register r) [r] := by
  have unexplained : r.unexplained = r := by
    rw [Rule.unexplained, ← h]
  refine ⟨rfl, ?_⟩
  rw [register, List.map_append, List.map_singleton, unexplained]

theorem gains_explain (d : Draft) (reason : String) : d.Gains (d.explain reason) [] := by
  unfold explain
  split
  case h_1 place _ =>
    have reason_only : (d.rules.modify place (·.because reason)).map Rule.unexplained =
        d.rules.map Rule.unexplained := by
      refine List.ext_getElem? fun i => ?_
      rw [List.getElem?_map, List.getElem?_modify, List.getElem?_map]
      split <;> cases d.rules[i]? <;> rfl
    exact ⟨rfl, by rw [List.append_nil, reason_only]⟩
  case h_2 => exact Gains.refl d

/-- Where each step of a run adds its part, and no step changes the roles being applied, the run
adds the parts in order. -/
theorem foldl_adds {α β : Type} {Adds : Draft → Draft → List β → Prop}
    (refl : ∀ d, Adds d d [])
    (trans : ∀ {d1 d2 d3 xs ys}, Adds d1 d2 xs → Adds d2 d3 ys → Adds d1 d3 (xs ++ ys))
    (keeps : ∀ {d1 d2 xs}, Adds d1 d2 xs → d2.applying = d1.applying)
    {run : Draft → α → Draft} {part : α → List β} {applying : List String} {xs : List α}
    {d : Draft} (start : d.applying = applying)
    (step : ∀ x ∈ xs, ∀ d : Draft, d.applying = applying → Adds d (run d x) (part x)) :
    Adds d (xs.foldl run d) (xs.flatMap part) := by
  induction xs generalizing d with
  | nil => exact refl d
  | cons x rest ih =>
    have first := step x List.mem_cons_self d start
    have others := ih ((keeps first).trans start) fun y hy => step y (List.mem_cons_of_mem x hy)
    exact trans first others

/-- What each step of a run gains, the run gains in order. -/
theorem gains_foldl {α : Type} {run : Draft → α → Draft} {gained : α → List Rule}
    {applying : List String} {xs : List α} {d : Draft} (start : d.applying = applying)
    (step : ∀ x ∈ xs, ∀ d : Draft, d.applying = applying → d.Gains (run d x) (gained x)) :
    d.Gains (xs.foldl run d) (xs.flatMap gained) :=
  foldl_adds Gains.refl Gains.trans Gains.applying start step

/-- A step gains its contribution, where applying a role gains what the role stands for. -/
theorem gains_step {extend : String → Draft → Draft} {extended : String → List Rule} {d : Draft}
    (h : ∀ role, d.Gains (extend role d) (extended role)) (s : Step) :
    d.Gains (step extend d s) (s.contribution extended) := by
  cases s with
  | can action subject => exact gains_register d rfl
  | cannot action subject => exact gains_register d rfl
  | because reason => exact gains_explain d reason
  | extend role => exact h role
  | canWhen action subject condition =>
    cases condition with
    | object fields => cases fields <;> exact gains_register d rfl
    | _ => exact ⟨rfl, (List.append_nil _).symm⟩
  | cannotWhen action subject condition =>
    cases condition with
    | object fields => cases fields <;> exact gains_register d rfl
    | _ => exact gains_register d rfl

/-- With more depth than there are roles left to apply, the depth plays no part: what is shown for
a role that is being applied, and for any other from what its steps extend, holds of applying any
role. A role that has a step has a handler, so with each role that is applied one fewer is left. -/
theorem apply_induction (u : Actor) {sources : List Permissions}
    {P : List Permissions → String → Draft → Draft → Prop}
    (applying : ∀ visited role d, role ∈ d.applying → P visited role d d)
    (fresh : ∀ visited role d extend, role ∉ d.applying →
      (∀ s ∈ visited.flatMap (·.program role u), ∀ extended d',
        d'.applying = role :: d.applying → P sources extended d' (extend extended d')) →
      let entered := { d with applying := role :: d.applying }
      let applied := (visited.flatMap (·.program role u)).foldl (step extend) entered
      P visited role d { applied with applying := applied.applying.tail })
    {visited : List Permissions} {depth : Nat} {d : Draft} (subset : ∀ p ∈ visited, p ∈ sources)
    (enough : (Permissions.handled sources \ d.applying.toFinset).card < depth) (role : String) :
    P visited role d (apply u sources depth visited role d) := by
  induction depth generalizing visited d role with
  | zero => omega
  | succ depth ih =>
    rw [apply]
    split
    case isTrue h => exact applying visited role d h
    case isFalse h =>
      refine fresh visited role d (apply u sources depth sources) h fun s mem extended d' hd' => ?_
      obtain ⟨p, visit, mem⟩ := List.mem_flatMap.mp mem
      have handled := Permissions.mem_handled_of_mem_program
        (List.mem_flatMap.mpr ⟨p, subset p visit, mem⟩)
      have fewer := Permissions.card_handled_lt (Finset.Subset.refl _) handled h
      exact ih (fun _ hq => hq) (by rw [hd']; omega) extended

/-- With more depth than there are roles left to apply, applying a role gains its expansion. -/
theorem gains_apply (u : Actor) {sources visited : List Permissions} {depth : Nat} {d : Draft}
    (subset : ∀ p ∈ visited, p ∈ sources)
    (enough : (Permissions.handled sources \ d.applying.toFinset).card < depth) (role : String) :
    d.Gains (apply u sources depth visited role d)
      (expansion u sources visited role d.applying) := by
  refine apply_induction u (P := fun visited role d after =>
    d.Gains after (expansion u sources visited role d.applying)) ?_ ?_ subset enough role
  · intro visited role d h
    rw [expansion_applying u sources visited h]
    exact Gains.refl d
  · intro visited role d extend h inner
    have program : visited.flatMap (·.steps u role) = visited.flatMap (·.program role u) := by
      simp only [Permissions.program_eq_steps]
    rw [expansion_fresh u sources visited h, program]
    have run := gains_foldl (d := { d with applying := role :: d.applying }) rfl
      fun s mem d' hd' => gains_step (fun extended => hd' ▸ inner s mem extended d' hd') s
    exact ⟨congrArg List.tail run.applying, run.rules⟩

/-- Outside of every role, the bound on nesting is enough. -/
theorem card_handled_lt_nestingBound (sources : List Permissions) {d : Draft}
    (outer : d.applying = []) :
    (Permissions.handled sources \ d.applying.toFinset).card < nestingBound sources := by
  have roles := List.toFinset_card_le ((sources.flatMap (·.handlers)).map (·.1))
  rw [List.length_map] at roles
  rw [outer, List.toFinset_nil, Finset.sdiff_empty, nestingBound, Permissions.handled]
  omega

/-- Outside of every role, the bound on nesting is enough to apply a role. -/
theorem gains_apply_outer (u : Actor) {sources visited : List Permissions} {d : Draft}
    (subset : ∀ p ∈ visited, p ∈ sources) (outer : d.applying = []) (role : String) :
    d.Gains (apply u sources (nestingBound sources) visited role d)
      (expansion u sources visited role []) := by
  have gains := gains_apply u subset (card_handled_lt_nestingBound sources outer) role
  rwa [outer] at gains

/-- The draft of an actor gains the expansion, source by source, of the two roles of every actor,
and then that of each of the actor's roles. -/
theorem gains_draftFor (u : Actor) (sources : List Permissions) :
    Draft.empty.Gains (draftFor u sources)
      ((sources.flatMap fun source =>
        expansion u sources [source] everyone [] ++ expansion u sources [source] everyAlias []) ++
      u.effectiveRoles.flatMap (expansion u sources sources · [])) := by
  have common : ∀ source ∈ sources, ∀ d : Draft, d.applying = [] →
      d.Gains
        (apply u sources (nestingBound sources) [source] everyAlias
          (apply u sources (nestingBound sources) [source] everyone d))
        (expansion u sources [source] everyone [] ++
          expansion u sources [source] everyAlias []) := by
    intro source mem d outer
    have subset : ∀ p ∈ [source], p ∈ sources := by
      intro p hp
      rwa [List.mem_singleton.mp hp]
    have first := gains_apply_outer u subset outer everyone
    exact first.trans (gains_apply_outer u subset (first.applying.trans outer) everyAlias)
  have own : ∀ role ∈ u.effectiveRoles, ∀ d : Draft, d.applying = [] →
      d.Gains (apply u sources (nestingBound sources) sources role d)
        (expansion u sources sources role []) :=
    fun role _ d outer => gains_apply_outer u (fun _ hp => hp) outer role
  have sources_gain := gains_foldl (d := empty) rfl common
  have roles_gain := gains_foldl (sources_gain.applying.trans rfl) own
  exact sources_gain.trans roles_gain

end Draft

/-- The rules of an actor are the expansion, source by source, of the two roles of every actor, and
then that of each of the actor's roles in order. -/
theorem buildAbility_rules (u : Actor) (sources : List Permissions) (skipConditions : Bool) :
    (buildAbility u sources skipConditions).rules.map Rule.unexplained =
      (sources.flatMap fun source =>
        expansion u sources [source] everyone [] ++ expansion u sources [source] everyAlias []) ++
      u.effectiveRoles.flatMap (expansion u sources sources · []) :=
  (Draft.gains_draftFor u sources).rules

/-! ### Storing -/

theorem Step.held_contribution {extended : String → List Rule}
    (inner : ∀ role, ∀ r ∈ extended role, r.Held) (s : Step) :
    ∀ r ∈ s.contribution extended, r.Held := by
  cases s with
  | can action subject => exact List.forall_mem_singleton.mpr (.allow action subject)
  | cannot action subject => exact List.forall_mem_singleton.mpr (.deny action subject)
  | because reason => exact fun r mem => absurd mem List.not_mem_nil
  | extend role => exact inner role
  | canWhen action subject condition =>
    have granted := Rule.Held.allow action subject
    cases condition with
    | object fields =>
      cases fields with
      | nil => exact List.forall_mem_singleton.mpr granted
      | cons entry rest => exact List.forall_mem_singleton.mpr (granted.under (entry :: rest))
    | _ => exact fun r mem => absurd mem List.not_mem_nil
  | cannotWhen action subject condition =>
    have denied := Rule.Held.deny action subject
    cases condition with
    | object fields =>
      cases fields with
      | nil => exact List.forall_mem_singleton.mpr denied
      | cons entry rest => exact List.forall_mem_singleton.mpr (denied.under (entry :: rest))
    | _ => exact List.forall_mem_singleton.mpr denied

theorem held_expansion (u : Actor) (sources visited : List Permissions) (role : String)
    (applying : List String) : ∀ r ∈ expansion u sources visited role applying, r.Held := by
  induction visited, role, applying using expansion.induct u sources with
  | case1 visited role applying h =>
    rw [expansion_applying u sources visited h]
    exact fun r mem => absurd mem List.not_mem_nil
  | case2 visited role applying h ih =>
    rw [expansion_fresh u sources visited h]
    intro r mem
    obtain ⟨s, taken, mem⟩ := List.mem_flatMap.mp mem
    exact s.held_contribution (fun extended => ih s taken extended) r mem

/-- The ability that is built for an actor comes back when it is reloaded from its stored rules. -/
theorem reload?_buildAbility (u : Actor) (sources : List Permissions) (skipConditions : Bool) :
    (buildAbility u sources skipConditions).reload? =
      some (buildAbility u sources skipConditions) := by
  refine Ability.reload?_eq fun r mem => Rule.held_iff.mpr ?_
  have gained := (Draft.gains_draftFor u sources).rules
  have unexplained : r.unexplained ∈ (draftFor u sources).rules.map Rule.unexplained :=
    List.mem_map_of_mem mem
  rw [gained] at unexplained
  have held : r.unexplained.Held := by
    simp only [Draft.empty, List.map_nil, List.nil_append, List.mem_append, List.mem_flatMap]
      at unexplained
    rcases unexplained with ⟨source, -, common | common⟩ | ⟨role, -, own⟩
    · exact held_expansion u sources [source] everyone [] _ common
    · exact held_expansion u sources [source] everyAlias [] _ common
    · exact held_expansion u sources sources role [] _ own
  exact held.isParsed

end AccessRules

import AccessRules.Proofs.Roles.Expansion
import Mathlib.Logic.Relation

/-! The building of an actor's rules as a run of single steps, which no depth bounds. A point of the
run is a draft with what is left to do. Main statement: at every point no role is applied within
itself, every application of a role gives back the roles being applied as it found them, no more are
nested than roles have handlers, and one, and the run goes on to its end, where the rules are those
that are built with the bound on nesting. -/

namespace AccessRules

/-- What is left to do. -/
inductive Task where
  /-- Applies a role from the visited sources. -/
  | call (visited : List Permissions) (role : String)
  | take (step : Step)
  /-- Goes back from the role that is applied innermost. -/
  | leave

namespace Task

def isCall : Task → Bool
  | call _ _ => true
  | _ => false

def isLeave : Task → Bool
  | leave => true
  | _ => false

/-- The applications of roles that are under way: those to go back from, and one that is called. -/
def nesting (agenda : List Task) : Nat :=
  agenda.countP isLeave + if agenda.head?.any isCall then 1 else 0

end Task

/-- A point in the building of rules. -/
structure Building where
  draft : Draft
  agenda : List Task

/-- A step that extends a role leaves its application to do. -/
def Step.tasks (sources : List Permissions) : Step → List Task
  | extend role => [.call sources role]
  | _ => []

namespace Building

/-- The building of an actor's rules before anything is done. -/
def start (u : Actor) (sources : List Permissions) : Building :=
  ⟨.empty,
    (sources.flatMap fun source => [.call [source] everyone, .call [source] everyAlias]) ++
      u.effectiveRoles.map (.call sources)⟩

/-- Does the next task, unless none is left. -/
def next? (u : Actor) (sources : List Permissions) : Building → Option Building
  | ⟨_, []⟩ => none
  | ⟨d, .call visited role :: rest⟩ =>
    if role ∈ d.applying then some ⟨d, rest⟩
    else some ⟨{ d with applying := role :: d.applying },
      (visited.flatMap (·.program role u)).map .take ++ .leave :: rest⟩
  | ⟨d, .take s :: rest⟩ => some ⟨d.step (fun _ d => d) s, s.tasks sources ++ rest⟩
  | ⟨d, .leave :: rest⟩ => some ⟨{ d with applying := d.applying.tail }, rest⟩

/-- Some steps lead from one point to the other. -/
def Reaches (u : Actor) (sources : List Permissions) : Building → Building → Prop :=
  Relation.ReflTransGen fun b c => b.next? u sources = some c

end Building

/-! ### What holds at every point -/

/-- The roles being applied fit what is left to do: each has to be left, none is applied within
itself, and those outside of the innermost have handlers, as the innermost has if it goes on. -/
inductive Task.Fits (sources : List Permissions) : List String → List Task → Prop
  | done : Fits sources [] []
  | call {visited : List Permissions} {role : String} {applying : List String} {rest : List Task}
      (subset : ∀ p ∈ visited, p ∈ sources)
      (handled : ∀ r ∈ applying, r ∈ Permissions.handled sources)
      (fits : Fits sources applying rest) : Fits sources applying (.call visited role :: rest)
  | take {s : Step} {applying : List String} {rest : List Task}
      (handled : ∀ r ∈ applying, r ∈ Permissions.handled sources)
      (fits : Fits sources applying rest) : Fits sources applying (.take s :: rest)
  | leave {role : String} {applying : List String} {rest : List Task} (fresh : role ∉ applying)
      (handled : ∀ r ∈ applying, r ∈ Permissions.handled sources)
      (fits : Fits sources applying rest) : Fits sources (role :: applying) (.leave :: rest)

namespace Task.Fits

variable {u : Actor} {sources : List Permissions} {applying : List String} {agenda : List Task}

theorem nodup (fits : Fits sources applying agenda) : applying.Nodup := by
  induction fits with
  | done => exact List.nodup_nil
  | call subset handled fits ih => exact ih
  | take handled fits ih => exact ih
  | leave fresh handled fits ih => exact List.nodup_cons.mpr ⟨fresh, ih⟩

theorem countP_isLeave (fits : Fits sources applying agenda) :
    agenda.countP Task.isLeave = applying.length := by
  induction fits with
  | done => rfl
  | call subset handled fits ih => simpa [isLeave] using ih
  | take handled fits ih => simpa [isLeave] using ih
  | leave fresh handled fits ih => rw [List.countP_cons_of_pos rfl, ih, List.length_cons]

theorem length_le_handled (fits : Fits sources applying agenda)
    (handled : ∀ r ∈ applying, r ∈ Permissions.handled sources) :
    applying.length ≤ (Permissions.handled sources).card := by
  rw [← List.toFinset_card_of_nodup fits.nodup]
  exact Finset.card_le_card fun r mem => handled r (List.mem_toFinset.mp mem)

theorem nesting_le (fits : Fits sources applying agenda) :
    nesting agenda ≤ (Permissions.handled sources).card + 1 := by
  rw [nesting, fits.countP_isLeave]
  cases fits with
  | done => exact Nat.zero_le _
  | call subset handled fits =>
    have bound := fits.length_le_handled handled
    exact Nat.add_le_add_right bound 1
  | take handled fits =>
    have bound := fits.length_le_handled handled
    exact Nat.le_succ_of_le bound
  | leave fresh handled fits =>
    have bound := fits.length_le_handled handled
    exact Nat.succ_le_succ bound

theorem takes {steps : List Step} (fits : Fits sources applying agenda)
    (handled : ∀ s ∈ steps, ∀ r ∈ applying, r ∈ Permissions.handled sources) :
    Fits sources applying (steps.map .take ++ agenda) := by
  induction steps with
  | nil => exact fits
  | cons s rest ih =>
    have later := ih fun t mem => handled t (List.mem_cons_of_mem s mem)
    exact .take (handled s List.mem_cons_self) later

theorem calls (h : ∀ t ∈ agenda, ∃ visited role, t = .call visited role ∧
    ∀ p ∈ visited, p ∈ sources) : Fits sources [] agenda := by
  induction agenda with
  | nil => exact .done
  | cons t rest ih =>
    obtain ⟨visited, role, rfl, subset⟩ := h t List.mem_cons_self
    have later := ih fun t mem => h t (List.mem_cons_of_mem _ mem)
    exact .call subset (fun _ mem => absurd mem List.not_mem_nil) later

end Task.Fits

namespace Building

variable {u : Actor} {sources : List Permissions}

theorem applying_take (d : Draft) (s : Step) :
    (d.step (fun _ d => d) s).applying = d.applying :=
  (Draft.gains_step (fun _ => Draft.Gains.refl d) s).applying

theorem fits_next {b c : Building} (fits : Task.Fits sources b.draft.applying b.agenda)
    (next : b.next? u sources = some c) : Task.Fits sources c.draft.applying c.agenda := by
  obtain ⟨⟨rules, last, applying⟩, agenda⟩ := b
  cases fits with
  | done => cases next
  | @call visited role _ rest subset handled fits =>
    rw [next?] at next
    split at next
    case isTrue =>
      obtain rfl := Option.some.inj next
      exact fits
    case isFalse fresh =>
      obtain rfl := Option.some.inj next
      refine Task.Fits.takes (.leave fresh handled fits) fun s mem r entered => ?_
      obtain ⟨p, visit, mem⟩ := List.mem_flatMap.mp mem
      have role_handled := Permissions.mem_handled_of_mem_program
        (List.mem_flatMap.mpr ⟨p, subset p visit, mem⟩)
      rcases List.mem_cons.mp entered with rfl | outer
      · exact role_handled
      · exact handled r outer
  | @take s _ rest handled fits =>
    obtain rfl := Option.some.inj next
    show Task.Fits sources (Draft.step (fun _ d => d) _ s).applying (s.tasks sources ++ rest)
    rw [applying_take]
    cases s with
    | extend role => exact .call (fun _ mem => mem) handled fits
    | _ => exact fits
  | leave fresh handled fits =>
    obtain rfl := Option.some.inj next
    exact fits

theorem fits_start (u : Actor) (sources : List Permissions) :
    Task.Fits sources [] (start u sources).agenda := by
  refine Task.Fits.calls fun t mem => ?_
  rcases List.mem_append.mp mem with common | own
  · obtain ⟨source, of_source, mem⟩ := List.mem_flatMap.mp common
    have subset : ∀ p ∈ [source], p ∈ sources := List.forall_mem_singleton.mpr of_source
    rcases List.mem_pair.mp mem with rfl | rfl
    · exact ⟨_, _, rfl, subset⟩
    · exact ⟨_, _, rfl, subset⟩
  · obtain ⟨role, -, rfl⟩ := List.mem_map.mp own
    exact ⟨_, _, rfl, fun _ mem => mem⟩

theorem fits_of_reaches {b : Building} (reached : Reaches u sources (start u sources) b) :
    Task.Fits sources b.draft.applying b.agenda := by
  induction reached with
  | refl => exact fits_start u sources
  | tail _ next fits => exact fits_next fits next

end Building

/-! ### What a run comes to -/

/-- A run that halts goes on to its end from each of its points: what comes next is settled. -/
theorem halts_of_reaches {α : Type} {next? : α → Option α} {a b e : α}
    (reached : Relation.ReflTransGen (fun x y => next? x = some y) a b)
    (ends : Relation.ReflTransGen (fun x y => next? x = some y) a e) (halts : next? e = none) :
    Relation.ReflTransGen (fun x y => next? x = some y) b e := by
  have unique : Relator.RightUnique fun x y => next? x = some y :=
    fun x y y' next next' => Option.some.inj (next.symm.trans next')
  rcases Relation.ReflTransGen.total_of_right_unique unique reached ends with onward | back
  · exact onward
  · rcases Relation.ReflTransGen.cases_head back with same | ⟨c, next, -⟩
    · exact same ▸ .refl
    · rw [halts] at next
      cases next

open Building (Reaches)

/-- Doing some tasks leads from one draft to the other, which applies the same roles. -/
structure Draft.Completes (u : Actor) (sources : List Permissions) (before after : Draft)
    (tasks : List Task) : Prop where
  applying : after.applying = before.applying
  reaches : ∀ rest, Reaches u sources ⟨before, tasks ++ rest⟩ ⟨after, rest⟩

namespace Draft

variable {u : Actor} {sources visited : List Permissions} {d : Draft}

theorem Completes.refl (d : Draft) : d.Completes u sources d [] := ⟨rfl, fun _ => .refl⟩

theorem Completes.trans {d1 d2 d3 : Draft} {tasks others : List Task}
    (h1 : d1.Completes u sources d2 tasks) (h2 : d2.Completes u sources d3 others) :
    d1.Completes u sources d3 (tasks ++ others) := by
  refine ⟨h2.applying.trans h1.applying, fun rest => ?_⟩
  rw [List.append_assoc]
  exact (h1.reaches (others ++ rest)).trans (h2.reaches rest)

theorem completes_foldl {α : Type} {run : Draft → α → Draft} {tasks : α → List Task}
    {applying : List String} {xs : List α} (start : d.applying = applying)
    (step : ∀ x ∈ xs, ∀ d : Draft, d.applying = applying →
      d.Completes u sources (run d x) (tasks x)) :
    d.Completes u sources (xs.foldl run d) (xs.flatMap tasks) :=
  foldl_adds Completes.refl Completes.trans Completes.applying start step

theorem completes_take {extend : String → Draft → Draft}
    (h : ∀ role, d.Completes u sources (extend role d) [.call sources role]) (s : Step) :
    d.Completes u sources (step extend d s) [.take s] := by
  cases s with
  | extend role =>
    refine ⟨(h role).applying, fun rest => ?_⟩
    have called : Building.next? u sources ⟨d, .take (.extend role) :: rest⟩ =
        some ⟨d, .call sources role :: rest⟩ := rfl
    exact .head called ((h role).reaches rest)
  | because reason =>
    exact ⟨(gains_explain d reason).applying, fun rest => .single rfl⟩
  | can action subject => exact ⟨rfl, fun rest => .single rfl⟩
  | cannot action subject => exact ⟨rfl, fun rest => .single rfl⟩
  | canWhen action subject condition => cases condition <;> exact ⟨rfl, fun rest => .single rfl⟩
  | cannotWhen action subject condition => cases condition <;> exact ⟨rfl, fun rest => .single rfl⟩

/-- With more depth than there are roles left to apply, a call does what applying the role does. -/
theorem completes_call {depth : Nat} (subset : ∀ p ∈ visited, p ∈ sources)
    (enough : (Permissions.handled sources \ d.applying.toFinset).card < depth) (role : String) :
    d.Completes u sources (apply u sources depth visited role d) [.call visited role] := by
  refine apply_induction u (P := fun visited role d after =>
    d.Completes u sources after [.call visited role]) ?_ ?_ subset enough role
  · intro visited role d applying
    exact ⟨rfl, fun rest => .single (if_pos applying)⟩
  · intro visited role d extend fresh inner
    have run := completes_foldl (d := { d with applying := role :: d.applying }) rfl
      fun s mem d' hd' => completes_take (fun extended => inner s mem extended d' hd') s
    refine ⟨congrArg List.tail run.applying, fun rest => ?_⟩
    have entered : Building.next? u sources ⟨d, .call visited role :: rest⟩ =
        some ⟨{ d with applying := role :: d.applying },
          (visited.flatMap (·.program role u)).map .take ++ .leave :: rest⟩ := if_neg fresh
    rw [List.map_eq_flatMap] at entered
    exact .head entered ((run.reaches (.leave :: rest)).tail rfl)

theorem completes_draftFor (u : Actor) (sources : List Permissions) :
    Draft.empty.Completes u sources (draftFor u sources) (Building.start u sources).agenda := by
  have common : ∀ source ∈ sources, ∀ d : Draft, d.applying = [] →
      d.Completes u sources
        (apply u sources (nestingBound sources) [source] everyAlias
          (apply u sources (nestingBound sources) [source] everyone d))
        [.call [source] everyone, .call [source] everyAlias] := by
    intro source mem d outer
    have subset : ∀ p ∈ [source], p ∈ sources := List.forall_mem_singleton.mpr mem
    have first : d.Completes u sources _ [.call [source] everyone] :=
      completes_call subset (card_handled_lt_nestingBound sources outer) everyone
    have enough := card_handled_lt_nestingBound sources (first.applying.trans outer)
    exact first.trans (completes_call subset enough everyAlias)
  have own : ∀ role ∈ u.effectiveRoles, ∀ d : Draft, d.applying = [] →
      d.Completes u sources (apply u sources (nestingBound sources) sources role d)
        [.call sources role] :=
    fun role _ d outer =>
      completes_call (fun _ mem => mem) (card_handled_lt_nestingBound sources outer) role
  have sources_done := completes_foldl (d := Draft.empty) rfl common
  have roles_done := completes_foldl (sources_done.applying.trans rfl) own
  rw [Building.start, List.map_eq_flatMap]
  exact sources_done.trans roles_done

end Draft

namespace Building

variable {u : Actor} {sources : List Permissions}

/-- The run from the start ends with the rules that are built. -/
theorem start_reaches_end (u : Actor) (sources : List Permissions) :
    Reaches u sources (start u sources) ⟨draftFor u sources, []⟩ := by
  have run := (Draft.completes_draftFor u sources).reaches []
  rwa [List.append_nil] at run

/-- There is one run, so from each of its points it goes on to the end. -/
theorem reaches_end {b : Building} (reached : Reaches u sources (start u sources) b) :
    Reaches u sources b ⟨draftFor u sources, []⟩ :=
  halts_of_reaches reached (start_reaches_end u sources) rfl

/-- A call does its part of the run and leaves the roles being applied as it found them. -/
theorem call_returns (u : Actor) (d : Draft) {visited : List Permissions}
    (subset : ∀ p ∈ visited, p ∈ sources) (role : String) :
    ∃ after, after.applying = d.applying ∧
      ∀ rest, Reaches u sources ⟨d, .call visited role :: rest⟩ ⟨after, rest⟩ := by
  have done := Draft.completes_call (u := u) (d := d) subset (Nat.lt_succ_self _) role
  exact ⟨_, done.applying, done.reaches⟩

/-- At every point of the building no role is applied within itself, and no more applications are
under way than roles have handlers, and one. Every call comes back, to what is left to do after it,
with the roles being applied as it found them; and the building comes to its end with the rules of
the ability. -/
theorem building_ends (u : Actor) (sources : List Permissions) {b : Building}
    (reached : Reaches u sources (start u sources) b) :
    b.draft.applying.Nodup ∧ Task.nesting b.agenda ≤ (Permissions.handled sources).card + 1 ∧
    (∀ visited role rest, b.agenda = .call visited role :: rest →
      ∃ after : Draft, after.applying = b.draft.applying ∧
        Reaches u sources ⟨b.draft, [.call visited role]⟩ ⟨after, []⟩ ∧
        Reaches u sources b ⟨after, rest⟩) ∧
    ∃ last : Draft, Reaches u sources b ⟨last, []⟩ ∧
      ∀ skipConditions, buildAbility u sources skipConditions = ⟨last.rules, skipConditions⟩ := by
  have fits := fits_of_reaches reached
  refine ⟨fits.nodup, fits.nesting_le, ?_, draftFor u sources, reaches_end reached, fun _ => rfl⟩
  intro visited role rest called
  obtain ⟨⟨rules, place, applying⟩, agenda⟩ := b
  obtain rfl : agenda = .call visited role :: rest := called
  cases fits with
  | call subset handled fits =>
    obtain ⟨after, same, reaches⟩ := call_returns u ⟨rules, place, applying⟩ subset role
    exact ⟨after, same, reaches [], reaches rest⟩

/-- Two roles extend each other; the second is about to call the first, within itself. -/
theorem building_ends_mutual :
    let sources : List Permissions :=
      [⟨[("author", fun _ => [.extend "editor"]), ("editor", fun _ => [.extend "author"])]⟩]
    let u : Actor := { Actor.ofId "u" with role := some "author" }
    let b : Building :=
      ⟨⟨[], none, ["editor", "author"]⟩, [.call sources "author", .leave, .leave]⟩
    Reaches u sources (start u sources) b ∧ Task.nesting b.agenda = 3 ∧
      (Permissions.handled sources).card = 2 ∧
      ∃ last : Draft, Reaches u sources b ⟨last, []⟩ ∧ last.rules = [] := by
  intro sources u b
  have reached : Reaches u sources (start u sources) b := by
    refine Relation.ReflTransGen.trans (b := ⟨.empty, [.call sources "author"]⟩) ?_ ?_
    · exact .head rfl (.head rfl (.head rfl (.head rfl .refl)))
    · exact .head rfl (.head rfl (.head rfl (.head rfl .refl)))
  obtain ⟨-, -, -, last, runs, rules⟩ := building_ends u sources reached
  refine ⟨reached, rfl, by decide +kernel, last, runs, ?_⟩
  have built := congrArg Ability.rules (rules false)
  exact built.symm.trans (by decide +kernel)

end Building

end AccessRules

import AccessRules.Proofs.Roles.Run

/-! The building of an actor's rules with a record of the handlers under way: the steps that each
has taken, and the rules that were there before each of them. Without the record it is the same run,
so it comes to the same end. -/

namespace AccessRules

/-- A step that a handler has taken, with the rules registered before it. -/
structure Taken where
  step : Step
  before : List Rule

/-- Whether the step only gives a reason. -/
def Step.explains : Step → Bool
  | because _ => true
  | _ => false

/-- The newest step that does more than give a reason, of those taken, newest first. -/
def Taken.preceding? (past : List Taken) : Option Taken := past.find? (!·.step.explains)

/-- What is left to do, with the runs of handlers told apart. -/
inductive Errand where
  /-- Applies a role from the visited sources. -/
  | call (visited : List Permissions) (role : String)
  /-- The run of a handler: the steps taken, newest first, and those to come. -/
  | run (past : List Taken) (future : List Step)
  /-- Goes back from the role that is applied innermost; some rules were registered before it. -/
  | leave (before : List Rule)

def Errand.tasks : Errand → List Task
  | call visited role => [.call visited role]
  | run _ future => future.map .take
  | leave _ => [.leave]

def Step.errands (sources : List Permissions) : Step → List Errand
  | extend role => [.call sources role]
  | _ => []

/-- A point in the building of rules, with a record of the handlers under way. -/
structure Chronicle where
  draft : Draft
  agenda : List Errand

namespace Chronicle

/-- The point without the record. -/
def building (c : Chronicle) : Building := ⟨c.draft, c.agenda.flatMap Errand.tasks⟩

/-- The building of an actor's rules before anything is done. -/
def start (u : Actor) (sources : List Permissions) : Chronicle :=
  ⟨.empty,
    (sources.flatMap fun source => [.call [source] everyone, .call [source] everyAlias]) ++
      u.effectiveRoles.map (.call sources)⟩

/-- Does the next thing, unless none is left. -/
def next? (u : Actor) (sources : List Permissions) : Chronicle → Option Chronicle
  | ⟨_, []⟩ => none
  | ⟨d, .call visited role :: rest⟩ =>
    if role ∈ d.applying then some ⟨d, rest⟩
    else some ⟨{ d with applying := role :: d.applying },
      visited.map (fun p => .run [] (p.program role u)) ++ .leave d.rules :: rest⟩
  | ⟨d, .run _ [] :: rest⟩ => some ⟨d, rest⟩
  | ⟨d, .run past (s :: future) :: rest⟩ =>
    some ⟨d.step (fun _ d => d) s, s.errands sources ++ .run (⟨s, d.rules⟩ :: past) future :: rest⟩
  | ⟨d, .leave _ :: rest⟩ => some ⟨{ d with applying := d.applying.tail }, rest⟩

/-- Some steps lead from one point to the other. -/
def Reaches (u : Actor) (sources : List Permissions) : Chronicle → Chronicle → Prop :=
  Relation.ReflTransGen fun b c => b.next? u sources = some c

/-! ### The same run -/

section Run

variable {u : Actor} {sources : List Permissions}

theorem building_start (u : Actor) (sources : List Permissions) :
    (start u sources).building = Building.start u sources := by
  have own : (u.effectiveRoles.flatMap fun role => [Task.call sources role]) =
      u.effectiveRoles.map (.call sources) := List.map_eq_flatMap.symm
  simp [building, start, Building.start, List.flatMap_assoc, List.flatMap_map, Errand.tasks, own]

/-- What comes next without the record comes about with it, once the runs that are over are left. -/
theorem exists_reaches_of_next {d : Draft} {agenda : List Errand} {b : Building}
    (next : (mk d agenda).building.next? u sources = some b) :
    ∃ c, Reaches u sources ⟨d, agenda⟩ c ∧ c.building = b := by
  induction agenda with
  | nil => cases next
  | cons e rest ih =>
    cases e with
    | call visited role =>
      have next : (if role ∈ d.applying then _ else _) = some b := next
      split at next
      case isTrue applying =>
        obtain rfl := Option.some.inj next
        exact ⟨⟨d, rest⟩, .single (if_pos applying), rfl⟩
      case isFalse fresh =>
        obtain rfl := Option.some.inj next
        refine ⟨_, .single (if_neg fresh), ?_⟩
        simp [building, Errand.tasks, List.flatMap_map, List.map_flatMap]
        rfl
    | run past future =>
      cases future with
      | nil =>
        obtain ⟨c, reached, same⟩ := ih next
        exact ⟨c, .head rfl reached, same⟩
      | cons s future =>
        obtain rfl := Option.some.inj next
        refine ⟨_, .single rfl, ?_⟩
        cases s <;> rfl
    | leave before =>
      obtain rfl := Option.some.inj next
      exact ⟨⟨_, rest⟩, .single rfl, rfl⟩

theorem exists_reaches {c : Chronicle} {b : Building}
    (reached : Building.Reaches u sources c.building b) :
    ∃ c', Reaches u sources c c' ∧ c'.building = b := by
  induction reached with
  | refl => exact ⟨c, .refl, rfl⟩
  | tail _ next ih =>
    obtain ⟨⟨d, agenda⟩, reached, rfl⟩ := ih
    obtain ⟨c', onward, same⟩ := exists_reaches_of_next next
    exact ⟨c', reached.trans onward, same⟩

/-- Runs that are over are all that may be left where nothing is left to do. -/
theorem reaches_of_tasks_eq_nil {d : Draft} {agenda : List Errand}
    (none : agenda.flatMap Errand.tasks = []) : Reaches u sources ⟨d, agenda⟩ ⟨d, []⟩ := by
  induction agenda with
  | nil => exact .refl
  | cons e rest ih =>
    rw [List.flatMap_cons, List.append_eq_nil_iff] at none
    obtain ⟨finished, none⟩ := none
    cases e with
    | call visited role => cases finished
    | leave before => cases finished
    | run past future =>
      obtain rfl : future = [] := List.map_eq_nil_iff.mp finished
      exact .head rfl (ih none)

theorem start_reaches_end (u : Actor) (sources : List Permissions) :
    Reaches u sources (start u sources) ⟨draftFor u sources, []⟩ := by
  have run := Building.start_reaches_end u sources
  rw [← building_start] at run
  obtain ⟨⟨d, agenda⟩, reached, same⟩ := exists_reaches run
  obtain ⟨rfl, none⟩ := Building.mk.inj same
  exact reached.trans (reaches_of_tasks_eq_nil none)

theorem reaches_end {c : Chronicle} (reached : Reaches u sources (start u sources) c) :
    Reaches u sources c ⟨draftFor u sources, []⟩ :=
  halts_of_reaches reached (start_reaches_end u sources) rfl

end Run

end Chronicle

end AccessRules

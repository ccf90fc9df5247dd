import AccessRules.Subjects
import Mathlib.Data.List.Nodup

/-! The subjects of a request through a history of calls. A resolver runs when its subject is first
asked for, by whatever name, and what it came back with is the answer from then on. `Kept` says so
of one state; every call preserves it, and `Kept.runsOnce` reads off what all later calls get. -/

namespace AccessRules

namespace Subjects

/-! ### One place -/

/-- The subjects after the resolver at a place has come back. -/
def record (s : Subjects) (place : Nat) (entry : SubjectEntry) (outcome : Outcome) : Subjects :=
  { s with
    entries := s.entries.set place { entry with outcome := some outcome }
    runs := s.runs ++ [place] }

section Place

variable {s : Subjects} {place : Nat} {entry : SubjectEntry}

theorem getAt_past (h : s.entries[place]? = none) : s.getAt place = (.ok none, s) := by
  rw [getAt, h]

theorem getAt_found {outcome : Outcome} (h : s.entries[place]? = some entry)
    (found : entry.outcome = some outcome) :
    s.getAt place = (outcome.found entry.name, s) := by
  rw [getAt, h]
  simp only [found]

theorem getAt_pending (h : s.entries[place]? = some entry) (pending : entry.outcome = none) :
    s.getAt place =
      ((entry.resolver.outcome s.context s.runs.length).found entry.name,
        s.record place entry (entry.resolver.outcome s.context s.runs.length)) := by
  rw [getAt, h]
  simp only [pending]
  rfl

end Place

/-- Asking for a place: there is no subject, or its outcome is kept, or its resolver runs. -/
theorem getAt_cases (s : Subjects) (place : Nat) :
    s.entries[place]? = none ∧ s.getAt place = (.ok none, s) ∨
    (∃ entry outcome, s.entries[place]? = some entry ∧ entry.outcome = some outcome ∧
      s.getAt place = (outcome.found entry.name, s)) ∨
    ∃ entry, s.entries[place]? = some entry ∧ entry.outcome = none ∧
      s.getAt place =
        ((entry.resolver.outcome s.context s.runs.length).found entry.name,
          s.record place entry (entry.resolver.outcome s.context s.runs.length)) := by
  cases h : s.entries[place]? with
  | none => exact .inl ⟨rfl, getAt_past h⟩
  | some entry =>
    cases found : entry.outcome with
    | some outcome => exact .inr (.inl ⟨entry, outcome, rfl, found, getAt_found h found⟩)
    | none => exact .inr (.inr ⟨entry, rfl, found, getAt_pending h found⟩)

/-- What asking for one place preserves, asking for several does. -/
theorem preserved_resolveAt {P : Subjects → Prop}
    (step : ∀ s place, P s → P (s.getAt place).2) (places : List Nat) {s : Subjects} (start : P s) :
    P (resolveAt places s).2 := by
  induction places generalizing s with
  | nil => exact start
  | cons place rest ih =>
    have next := step s place start
    unfold resolveAt
    split
    case h_1 t h =>
      rw [h] at next
      exact ih next
    case h_2 e t h =>
      rw [h] at next
      exact next

/-- What asking for a subject comes to: the outcome that is kept of it, or else what its resolver
comes back with now. -/
def outcomeOf (s : Subjects) (entry : SubjectEntry) : Outcome :=
  entry.outcome.getD (entry.resolver.outcome s.context s.runs.length)

/-- No resolver has run twice, and what is kept of a subject is what its resolver came back with in
its one run. -/
structure Kept (s : Subjects) : Prop where
  once : s.runs.Nodup
  registered : ∀ place ∈ s.runs, place < s.entries.length
  outcome : ∀ place entry, s.entries[place]? = some entry →
    entry.outcome = if place ∈ s.runs then
        some (entry.resolver.outcome s.context (s.runs.idxOf place))
      else none

theorem kept_fresh (context : Context) (resolvers : List (String × Resolver)) :
    (fresh context resolvers).Kept := by
  refine ⟨List.nodup_nil, fun place mem => absurd mem List.not_mem_nil, fun place entry h => ?_⟩
  rw [fresh, List.getElem?_map] at h
  obtain ⟨⟨name, resolver⟩, -, rfl⟩ := Option.map_eq_some_iff.mp h
  rfl

namespace Kept

variable {s : Subjects} {place : Nat} {entry : SubjectEntry}

theorem pending_iff (kept : s.Kept) (h : s.entries[place]? = some entry) :
    entry.outcome = none ↔ place ∉ s.runs := by
  rw [kept.outcome place entry h]
  by_cases mem : place ∈ s.runs <;> simp [mem]

theorem record (kept : s.Kept) (h : s.entries[place]? = some entry)
    (pending : entry.outcome = none) :
    (s.record place entry (entry.resolver.outcome s.context s.runs.length)).Kept := by
  have new : place ∉ s.runs := (kept.pending_iff h).mp pending
  have bound : place < s.entries.length := (List.getElem?_eq_some_iff.mp h).1
  refine ⟨?_, ?_, ?_⟩
  · show (s.runs ++ [place]).Nodup
    rw [List.nodup_append]
    refine ⟨kept.once, List.nodup_singleton place, ?_⟩
    rintro other mem _ last rfl
    exact new (List.mem_singleton.mp last ▸ mem)
  · intro other mem
    show other < (s.entries.set place _).length
    rw [List.length_set]
    rcases List.mem_append.mp mem with mem | mem
    · exact kept.registered other mem
    · obtain rfl := List.mem_singleton.mp mem
      exact bound
  · intro other e he
    show e.outcome = if other ∈ s.runs ++ [place] then
      some (e.resolver.outcome s.context ((s.runs ++ [place]).idxOf other)) else none
    have he : (s.entries.set place _)[other]? = some e := he
    by_cases same : place = other
    · subst same
      rw [List.getElem?_set_self bound] at he
      obtain rfl := Option.some.inj he
      rw [if_pos (by simp), List.idxOf_append_of_notMem new]
      simp
    · rw [List.getElem?_set_ne same] at he
      rw [kept.outcome other e he]
      by_cases mem : other ∈ s.runs
      · rw [if_pos mem, if_pos (List.mem_append_left _ mem), List.idxOf_append_of_mem mem]
      · rw [if_neg mem, if_neg (by simp [mem, Ne.symm same])]

theorem getAt (kept : s.Kept) (place : Nat) : (s.getAt place).2.Kept := by
  obtain ⟨-, eq⟩ | ⟨entry, outcome, -, -, eq⟩ | ⟨entry, h, pending, eq⟩ := s.getAt_cases place
  · rw [eq]
    exact kept
  · rw [eq]
    exact kept
  · rw [eq]
    exact kept.record h pending

theorem getAt_eq (kept : s.Kept) (h : s.entries[place]? = some entry) :
    (s.getAt place).1 = (s.outcomeOf entry).found entry.name ∧
      (s.getAt place).2.entries[place]? = some { entry with outcome := some (s.outcomeOf entry) } ∧
      (s.getAt place).2.runs = s.runs ++ if place ∈ s.runs then [] else [place] := by
  have bound : place < s.entries.length := (List.getElem?_eq_some_iff.mp h).1
  cases found : entry.outcome with
  | some outcome =>
    have ran : place ∈ s.runs := by
      by_contra new
      rw [(kept.pending_iff h).mpr new] at found
      cases found
    rw [getAt_found h found, if_pos ran, List.append_nil, outcomeOf, found, Option.getD_some]
    refine ⟨rfl, ?_, rfl⟩
    rw [h, ← found]
  | none =>
    rw [getAt_pending h found, if_neg ((kept.pending_iff h).mp found), outcomeOf, found,
      Option.getD_none]
    exact ⟨rfl, List.getElem?_set_self bound, rfl⟩

theorem resolveAt (kept : s.Kept) (places : List Nat) : (resolveAt places s).2.Kept :=
  preserved_resolveAt (fun _ place kept => kept.getAt place) places kept

end Kept

/-! ### Later states -/

/-- The names of the subjects with their resolvers. -/
def resolvers (s : Subjects) : List (String × Resolver) :=
  s.entries.map fun entry => (entry.name, entry.resolver)

/-- A later state of the same subjects: what has been found stays. -/
structure Later (s t : Subjects) : Prop where
  context : t.context = s.context
  resolvers : t.resolvers = s.resolvers
  runs : s.runs <+: t.runs
  stays : ∀ (place : Nat) (entry : SubjectEntry), s.entries[place]? = some entry →
    entry.outcome ≠ none → t.entries[place]? = some entry

theorem names_eq (s : Subjects) : s.names = s.resolvers.map (·.1) := by
  rw [resolvers, List.map_map]
  rfl

theorem resolvers_fresh (context : Context) (resolvers : List (String × Resolver)) :
    (fresh context resolvers).resolvers = resolvers := by
  rw [Subjects.resolvers, fresh, List.map_map]
  exact List.map_id resolvers

namespace Later

theorem refl (s : Subjects) : s.Later s := ⟨rfl, rfl, List.prefix_rfl, fun _ _ h _ => h⟩

theorem trans {s t u : Subjects} (first : s.Later t) (second : t.Later u) : s.Later u :=
  ⟨second.context.trans first.context, second.resolvers.trans first.resolvers,
    first.runs.trans second.runs, fun place entry h found =>
      second.stays place entry (first.stays place entry h found) found⟩

theorem names {s t : Subjects} (later : s.Later t) : t.names = s.names := by
  rw [names_eq, names_eq, later.resolvers]

theorem length {s t : Subjects} (later : s.Later t) : t.entries.length = s.entries.length := by
  have lengths := congrArg List.length later.resolvers
  rwa [Subjects.resolvers, Subjects.resolvers, List.length_map, List.length_map] at lengths

end Later

section Later

variable {s : Subjects}

theorem later_record {place : Nat} {entry : SubjectEntry} (h : s.entries[place]? = some entry)
    (pending : entry.outcome = none) (outcome : Outcome) :
    s.Later (s.record place entry outcome) := by
  refine ⟨rfl, ?_, List.prefix_append s.runs [place], fun other e he found => ?_⟩
  · show (s.entries.set place _).map _ = s.entries.map _
    have bound : place < s.entries.length := (List.getElem?_eq_some_iff.mp h).1
    refine List.ext_getElem? fun other => ?_
    rw [List.getElem?_map, List.getElem?_map]
    by_cases same : place = other
    · subst same
      rw [List.getElem?_set_self bound, h]
      rfl
    · rw [List.getElem?_set_ne same]
  · show (s.entries.set place _)[other]? = some e
    have other_place : place ≠ other := by
      rintro rfl
      rw [h] at he
      exact found (Option.some.inj he ▸ pending)
    rwa [List.getElem?_set_ne other_place]

theorem later_getAt (s : Subjects) (place : Nat) : s.Later (s.getAt place).2 := by
  obtain ⟨-, eq⟩ | ⟨entry, outcome, -, -, eq⟩ | ⟨entry, h, pending, eq⟩ := s.getAt_cases place
  · rw [eq]
    exact .refl s
  · rw [eq]
    exact .refl s
  · rw [eq]
    exact later_record h pending _

theorem later_resolveAt (places : List Nat) (s : Subjects) :
    s.Later (resolveAt places s).2 :=
  preserved_resolveAt (fun t place later => later.trans (later_getAt t place)) places (.refl s)

end Later

/-! ### What is kept -/

/-- The outcome that is kept of the subject at a place. -/
def Holds (s : Subjects) (place : Nat) (outcome : Outcome) : Prop :=
  ∃ entry, s.entries[place]? = some entry ∧ entry.outcome = some outcome

theorem Holds.later {s t : Subjects} {place : Nat} {outcome : Outcome}
    (holds : s.Holds place outcome) (later : s.Later t) : t.Holds place outcome := by
  obtain ⟨entry, h, found⟩ := holds
  refine ⟨entry, later.stays place entry h ?_, found⟩
  rw [found]
  exact Option.some_ne_none outcome

theorem Holds.getAt {s : Subjects} {place : Nat} {value : Option Value}
    (holds : s.Holds place (.ok value)) : s.getAt place = (.ok value, s) := by
  obtain ⟨entry, h, found⟩ := holds
  exact getAt_found h found

theorem eq_ok_of_found {outcome : Outcome} {name : String} {value : Option Value}
    (h : outcome.found name = .ok value) : outcome = .ok value := by
  cases outcome with
  | ok own => exact congrArg Except.ok (Except.ok.inj h)
  | error cause => cases h

/-- A value that has been found is kept. -/
theorem holds_of_getAt {s : Subjects} {place : Nat} {v : Value}
    (answer : (s.getAt place).1 = .ok (some v)) :
    (s.getAt place).2.Holds place (.ok (some v)) := by
  obtain ⟨-, eq⟩ | ⟨entry, outcome, h, found, eq⟩ | ⟨entry, h, pending, eq⟩ := s.getAt_cases place
  · rw [eq] at answer
    cases answer
  · rw [eq] at answer ⊢
    obtain rfl := eq_ok_of_found answer
    exact ⟨entry, h, found⟩
  · have bound : place < s.entries.length := (List.getElem?_eq_some_iff.mp h).1
    rw [eq] at answer ⊢
    have value := eq_ok_of_found answer
    exact ⟨_, List.getElem?_set_self bound, congrArg some value⟩

/-! ### All subjects -/

/-- The subject at a place has been searched for without failure, whether it was found or not. -/
def Succeeds (s : Subjects) (place : Nat) : Prop := ∃ value, s.Holds place (.ok value)

theorem Succeeds.later {s t : Subjects} {place : Nat} (succeeds : s.Succeeds place)
    (later : s.Later t) : t.Succeeds place := by
  obtain ⟨value, holds⟩ := succeeds
  exact ⟨value, holds.later later⟩

/-- The first places, up to a number of them, whose resolvers have not run, in order. -/
def pending (s : Subjects) (n : Nat) : List Nat := (List.range n).filter (· ∉ s.runs)

theorem pending_succ (s : Subjects) (n : Nat) :
    s.pending (n + 1) = s.pending n ++ if n ∈ s.runs then [] else [n] := by
  rw [pending, List.range_succ, List.filter_append, pending]
  by_cases mem : n ∈ s.runs <;> simp [mem]

theorem lt_of_mem_pending {s : Subjects} {n place : Nat} (h : place ∈ s.pending n) : place < n :=
  List.mem_range.mp (List.mem_filter.mp h).1

/-- How the first subjects, up to a number of them, are all asked for: those that have not been
searched for are, in order, up to the first subject with a failure, old or new. -/
inductive Swept (s : Subjects) (n : Nat) : Except AccessError Unit → Subjects → Prop
  | completed {t : Subjects} (succeed : ∀ place < n, t.Succeeds place)
      (runs : t.runs = s.runs ++ s.pending n) : Swept s n (.ok ()) t
  | stopped {t : Subjects} {place : Nat} {entry : SubjectEntry} {cause : ResolveError}
      (lt : place < n) (succeed : ∀ earlier < place, t.Succeeds earlier)
      (found : t.entries[place]? = some entry) (failed : entry.outcome = some (.error cause))
      (runs : t.runs = s.runs ++ s.pending (place + 1)) :
      Swept s n (.error (.subjectResolution entry.name cause)) t

theorem resolveAt_concat (places : List Nat) (place : Nat) (s : Subjects) :
    resolveAt (places ++ [place]) s =
      match resolveAt places s with
      | (.ok _, t) => ((t.getAt place).1.map fun _ => (), (t.getAt place).2)
      | (.error e, t) => (.error e, t) := by
  induction places generalizing s with
  | nil =>
    simp only [List.nil_append, resolveAt]
    split <;> simp_all [Except.map]
  | cons first rest ih =>
    simp only [List.cons_append, resolveAt]
    split
    · exact ih _
    · rfl

/-- Asking for the next subject after all before it have been searched for. -/
theorem Kept.swept_next {s t : Subjects} {n : Nat} (kept : t.Kept) (bound : n < t.entries.length)
    (succeed : ∀ place < n, t.Succeeds place) (runs : t.runs = s.runs ++ s.pending n) :
    Swept s (n + 1) ((t.getAt n).1.map fun _ => ()) (t.getAt n).2 := by
  obtain ⟨answer, found, ran⟩ := kept.getAt_eq (List.getElem?_eq_getElem bound)
  have later := later_getAt t n
  have old : n ∈ t.runs ↔ n ∈ s.runs := by
    rw [runs, List.mem_append]
    exact or_iff_left fun mem => Nat.lt_irrefl n (lt_of_mem_pending mem)
  have ran : (t.getAt n).2.runs = s.runs ++ s.pending (n + 1) := by
    simp only [ran, old]
    rw [runs, pending_succ, List.append_assoc]
  have succeed : ∀ place < n, (t.getAt n).2.Succeeds place :=
    fun place lt => (succeed place lt).later later
  rw [answer]
  cases outcome : t.outcomeOf t.entries[n] with
  | ok value =>
    refine .completed (fun place lt => ?_) ran
    rcases Nat.lt_succ_iff_lt_or_eq.mp lt with lt | rfl
    · exact succeed place lt
    · exact ⟨value, _, found, congrArg some outcome⟩
  | error cause =>
    rw [outcome] at found
    exact @Swept.stopped s (n + 1) _ n { t.entries[n] with outcome := some (.error cause) } cause
      (Nat.lt_succ_self n) succeed found rfl ran

theorem Kept.swept_range {s : Subjects} (kept : s.Kept) {n : Nat} (le : n ≤ s.entries.length) :
    Swept s n (Subjects.resolveAt (List.range n) s).1
      (Subjects.resolveAt (List.range n) s).2 := by
  induction n with
  | zero => exact .completed nofun (List.append_nil _).symm
  | succ n ih =>
    have swept := ih (by omega)
    have kept_range := kept.resolveAt (List.range n)
    have later := later_resolveAt (List.range n) s
    rw [List.range_succ, resolveAt_concat]
    generalize Subjects.resolveAt (List.range n) s = r at swept kept_range later
    obtain ⟨result, t⟩ := r
    cases swept with
    | completed succeed runs =>
      have bound : n < t.entries.length := by
        rw [later.length]
        omega
      exact kept_range.swept_next bound succeed runs
    | stopped lt succeed found failed runs =>
      exact .stopped (by omega) succeed found failed runs

/-! ### Histories -/

/-- A question about one subject: the one that a name stands for, or the first. -/
inductive Ask where
  | named (name : String)
  | first

/-- A call on the subjects of a request. -/
inductive Call where
  | ask (question : Ask)
  | all
  | isResolved (name : String)

/-- The place that a question is about. -/
def asked? (s : Subjects) : Ask → Option Nat
  | .named name => s.place? name
  | .first => some 0

/-- The answer to a question, and the subjects after it. -/
def answer (s : Subjects) : Ask → Found × Subjects
  | .named name => s.get name
  | .first => s.primary

/-- The subjects after a call. -/
def after (s : Subjects) : Call → Subjects
  | .ask question => (s.answer question).2
  | .all => s.resolveAll.2
  | .isResolved _ => s

/-- The subjects after some calls in their order. -/
def afterAll (s : Subjects) (calls : List Call) : Subjects := calls.foldl after s

section Ask

variable {s : Subjects} {question : Ask}

theorem answer_of_asked {place : Nat} (h : s.asked? question = some place) :
    s.answer question = s.getAt place := by
  cases question with
  | named name =>
    show s.get name = s.getAt place
    have h : s.place? name = some place := h
    rw [get, h]
  | first =>
    obtain rfl : 0 = place := Option.some.inj h
    rfl

theorem answer_of_unasked (h : s.asked? question = none) : s.answer question = (.ok none, s) := by
  cases question with
  | named name =>
    show s.get name = (.ok none, s)
    have h : s.place? name = none := h
    rw [get, h]
  | first => cases h

theorem Later.asked?_eq {t : Subjects} (later : s.Later t) (question : Ask) :
    t.asked? question = s.asked? question := by
  cases question with
  | named name =>
    show t.place? name = s.place? name
    rw [place?, place?, later.names]
  | first => rfl

end Ask

section History

variable {P : Subjects → Prop} {s : Subjects}

theorem preserved_after (step : ∀ s place, P s → P (s.getAt place).2) (start : P s) (call : Call) :
    P (s.after call) := by
  cases call with
  | ask question =>
    show P (s.answer question).2
    cases h : s.asked? question with
    | none =>
      rw [answer_of_unasked h]
      exact start
    | some place =>
      rw [answer_of_asked h]
      exact step s place start
  | all => exact preserved_resolveAt step _ start
  | isResolved name => exact start

/-- What asking for one place preserves holds after any calls. -/
theorem preserved_afterAll (step : ∀ s place, P s → P (s.getAt place).2) (start : P s)
    (calls : List Call) : P (s.afterAll calls) := by
  induction calls generalizing s with
  | nil => exact start
  | cons call rest ih => exact ih (preserved_after step start call)

theorem Kept.afterAll (kept : s.Kept) (calls : List Call) : (s.afterAll calls).Kept :=
  preserved_afterAll (fun _ place kept => kept.getAt place) kept calls

theorem later_afterAll (s : Subjects) (calls : List Call) : s.Later (s.afterAll calls) :=
  preserved_afterAll (fun t place later => later.trans (later_getAt t place)) (.refl s) calls

end History

/-- What each call does to subjects on which some have been made already. -/
structure RunsOnce (s : Subjects) : Prop extends s.Kept where
  /-- Asking for a subject gets what is kept of it, or else runs its own resolver and no other; from
  then on, that is the answer for whoever asks for the subject, by whatever name. -/
  asked : ∀ question place entry, s.asked? question = some place →
    s.entries[place]? = some entry →
    (s.answer question).1 = (s.outcomeOf entry).found entry.name ∧
      (s.answer question).2.runs = s.runs ++ (if place ∈ s.runs then [] else [place]) ∧
      ∀ calls again, s.asked? again = some place →
        ((s.answer question).2.afterAll calls).answer again =
          ((s.outcomeOf entry).found entry.name, (s.answer question).2.afterAll calls)
  /-- Asking for what is not there finds nothing and runs nothing. -/
  absent : ∀ question, (s.asked? question).bind (s.entries[·]?) = none →
    s.answer question = (.ok none, s)
  /-- Asking for all runs the resolvers that have not run, in order, up to the first failure. -/
  all : Swept s s.entries.length s.resolveAll.1 s.resolveAll.2
  resolved : ∀ name, s.isResolved name ↔ ∃ place ∈ s.runs, s.place? name = some place

theorem Kept.isResolved_iff {s : Subjects} (kept : s.Kept) (name : String) :
    s.isResolved name ↔ ∃ place ∈ s.runs, s.place? name = some place := by
  rw [isResolved]
  cases stands : s.place? name with
  | none => simp
  | some place =>
    rw [Option.bind_some]
    constructor
    · intro resolved
      obtain ⟨entry, found, outcome⟩ := (Option.any_eq_true _ _).mp resolved
      refine ⟨place, ?_, rfl⟩
      by_contra new
      rw [(kept.pending_iff found).mpr new] at outcome
      cases outcome
    · rintro ⟨_, ran, same⟩
      obtain rfl := Option.some.inj same
      have found := List.getElem?_eq_getElem (kept.registered place ran)
      have outcome := mt (kept.pending_iff found).mp (not_not_intro ran)
      rw [found, Option.any_some, Option.isSome_iff_ne_none]
      exact outcome

theorem Kept.runsOnce {s : Subjects} (kept : s.Kept) : s.RunsOnce := by
  refine { kept with asked := ?_, absent := ?_, all := ?_, resolved := kept.isResolved_iff }
  · intro question place entry about h
    obtain ⟨answer, found, runs⟩ := kept.getAt_eq h
    rw [answer_of_asked about]
    refine ⟨answer, runs, fun calls again about_again => ?_⟩
    have later := later_afterAll (s.getAt place).2 calls
    have stays := later.stays place _ found (by simp)
    rw [← ((later_getAt s place).trans later).asked?_eq again] at about_again
    rw [answer_of_asked about_again, getAt_found stays rfl]
  · intro question none
    cases h : s.asked? question with
    | none => exact answer_of_unasked h
    | some place =>
      rw [h] at none
      rw [answer_of_asked h, getAt_past none]
  · exact kept.swept_range (Nat.le_refl _)

end Subjects

end AccessRules

import AccessRules.Proofs.Roles.Chronicle

/-! Where reasons go. A reason goes to the rule that was registered last of all, unless a grant was
dropped since. Main statement: the step before it in the same handler registered that rule, except
where a handler gives a reason before it has done anything else or after extending a role that
registers nothing; and where no reason goes astray like that, applying a role leaves the rules
before it as they were. -/

namespace AccessRules

/-! ### One step of a handler -/

namespace Draft

/-- A reason would go to the rule registered last of all, or to none. -/
def PointsLast (d : Draft) : Prop := ∀ place, d.last = some place → place + 1 = d.rules.length

/-- What a step does to the draft by itself: it registers a rule, drops a grant, gives a reason or
leaves all to the role that it extends. -/
inductive Taking (d : Draft) : Step → Draft → Prop
  | register {s : Step} (r : Rule) (plain : s.explains = false)
      (here : ∀ sources, s.errands sources = []) : Taking d s (d.register r)
  | drop {s : Step} (plain : s.explains = false)
      (here : ∀ sources, s.errands sources = []) : Taking d s { d with last := none }
  | explain (reason : String) : Taking d (.because reason) (d.explain reason)
  | extend (role : String) : Taking d (.extend role) d

theorem taking_step (d : Draft) (s : Step) : d.Taking s (d.step (fun _ d => d) s) := by
  cases s with
  | can action subject => exact .register _ rfl fun _ => rfl
  | cannot action subject => exact .register _ rfl fun _ => rfl
  | because reason => exact .explain reason
  | extend role => exact .extend role
  | canWhen action subject condition =>
    cases condition with
    | object fields => exact .register _ rfl fun _ => rfl
    | _ => exact .drop rfl fun _ => rfl
  | cannotWhen action subject condition =>
    cases condition <;> exact .register _ rfl fun _ => rfl

/-- A reason changes nothing, or the rule registered last of all, by its reason alone. -/
theorem explain_cases {d : Draft} (points : d.PointsLast) (reason : String) :
    (d.last = none ∧ d.explain reason = d) ∨
      ∃ earlier r, d.rules = earlier ++ [r] ∧ d.last = some earlier.length ∧
        d.explain reason = { d with rules := earlier ++ [r.because reason] } := by
  unfold explain
  cases last : d.last with
  | none => exact .inl ⟨rfl, rfl⟩
  | some place =>
    have length := points place last
    rcases List.eq_nil_or_concat d.rules with none | ⟨earlier, r, rules⟩
    · rw [none] at length
      cases length
    · obtain rfl : place = earlier.length := by simpa [rules] using length
      refine .inr ⟨earlier, r, by simpa using rules, rfl, ?_⟩
      simp [rules, List.modify_eq_take_drop]

theorem length_explain (d : Draft) (reason : String) :
    (d.explain reason).rules.length = d.rules.length := by
  unfold explain
  cases d.last with
  | none => rfl
  | some place => exact List.length_modify ..

theorem last_explain (d : Draft) (reason : String) : (d.explain reason).last = d.last := by
  unfold explain
  cases last : d.last with
  | none => exact last
  | some place => rfl

theorem Taking.pointsLast {d e : Draft} {s : Step} (taking : d.Taking s e)
    (points : d.PointsLast) : e.PointsLast := by
  intro place last
  cases taking with
  | register r plain here =>
    obtain rfl := Option.some.inj last
    simp [Draft.register]
  | drop plain here => cases last
  | explain reason =>
    rw [last_explain] at last
    rw [length_explain]
    exact points place last
  | extend role => exact points place last

theorem Taking.length_le {d e : Draft} {s : Step} (taking : d.Taking s e) :
    d.rules.length ≤ e.rules.length := by
  cases taking with
  | register r plain here => simp [Draft.register]
  | drop plain here => exact Nat.le_refl _
  | explain reason => exact (length_explain d reason).ge
  | extend role => exact Nat.le_refl _

end Draft

/-! ### The record -/

namespace Taken

theorem preceding?_of_plain {t : Taken} (past : List Taken) (plain : t.step.explains = false) :
    preceding? (t :: past) = some t :=
  List.find?_cons_of_pos (by rw [plain]; rfl)

end Taken

namespace Errand

/-- What is known of an errand that waits: a handler that has begun waits for a role it extends. -/
def Waits (d : Draft) : Errand → Prop
  | call _ _ => True
  | run past _ => ∀ t, Taken.preceding? past = some t → ∃ role, t.step = .extend role
  | leave before => before.length ≤ d.rules.length

/-- What is known of the errand that is next: the handler has extended a role, or has registered a
rule, or else no rule would get a reason. -/
def Leads (d : Draft) : Errand → Prop
  | run past _ => ∀ t, Taken.preceding? past = some t →
    (∃ role, t.step = .extend role) ∨ t.before.length < d.rules.length ∨ d.last = none
  | _ => True

/-- A handler takes its steps while the role it belongs to is applied. -/
def Nested : Errand → Errand → Prop
  | run past _, leave before => ∀ t ∈ past, before.length ≤ t.before.length
  | _, _ => True

theorem Waits.mono {d d' : Draft} {e : Errand} (waits : e.Waits d)
    (le : d.rules.length ≤ d'.rules.length) : e.Waits d' := by
  cases e with
  | call visited role => trivial
  | run past future => exact waits
  | leave before => exact Nat.le_trans waits le

theorem Waits.leads {d : Draft} {e : Errand} (waits : e.Waits d) : e.Leads d := by
  cases e with
  | call visited role => trivial
  | run past future => exact fun t found => .inl (waits t found)
  | leave before => trivial

theorem nested_run_nil (future : List Step) (e : Errand) : Nested (.run [] future) e := by
  cases e with
  | leave before => exact fun t mem => absurd mem List.not_mem_nil
  | _ => trivial

theorem Nested.take {d : Draft} {past : List Taken} {future : List Step} {e : Errand} (s : Step)
    (nested : Nested (.run past (s :: future)) e) (waits : e.Waits d) :
    Nested (.run (⟨s, d.rules⟩ :: past) future) e := by
  cases e with
  | leave before => exact List.forall_mem_cons.mpr ⟨waits, nested⟩
  | _ => trivial

end Errand

namespace Chronicle

/-- What the record tells at every point. -/
structure Sound (c : Chronicle) : Prop where
  points : c.draft.PointsLast
  leads : ∀ e, c.agenda.head? = some e → e.Leads c.draft
  waits : ∀ e ∈ c.agenda.tail, e.Waits c.draft
  nested : c.agenda.Pairwise Errand.Nested

section Sound

variable {u : Actor} {sources : List Permissions} {d : Draft} {agenda : List Errand}

theorem sound_of_waits (points : d.PointsLast) (waits : ∀ e ∈ agenda, e.Waits d)
    (nested : agenda.Pairwise Errand.Nested) : Sound ⟨d, agenda⟩ :=
  ⟨points, fun e head => (waits e (List.mem_of_mem_head? head)).leads,
    fun e mem => waits e (List.mem_of_mem_tail mem), nested⟩

theorem sound_start (u : Actor) (sources : List Permissions) : (start u sources).Sound := by
  have calls : ∀ e ∈ (start u sources).agenda, ∃ visited role, e = .call visited role := by
    intro e mem
    rcases List.mem_append.mp mem with common | own
    · obtain ⟨source, -, mem⟩ := List.mem_flatMap.mp common
      rcases List.mem_pair.mp mem with rfl | rfl <;> exact ⟨_, _, rfl⟩
    · obtain ⟨role, -, rfl⟩ := List.mem_map.mp own
      exact ⟨_, _, rfl⟩
  refine sound_of_waits (fun _ last => nomatch last) ?_ ?_
  · intro e mem
    obtain ⟨visited, role, rfl⟩ := calls e mem
    trivial
  · refine List.pairwise_of_forall_mem_list fun e mem e' _ => ?_
    obtain ⟨visited, role, rfl⟩ := calls e mem
    trivial

theorem sound_enter {visited : List Permissions} {role : String} {rest : List Errand}
    (points : d.PointsLast) (waits : ∀ e ∈ rest, e.Waits d)
    (nested : rest.Pairwise Errand.Nested) :
    Sound ⟨{ d with applying := role :: d.applying },
      visited.map (fun p => .run [] (p.program role u)) ++ .leave d.rules :: rest⟩ := by
  refine sound_of_waits points (fun e mem => ?_) ?_
  · rcases List.mem_append.mp mem with fresh | mem
    · obtain ⟨p, -, rfl⟩ := List.mem_map.mp fresh
      exact fun t found => nomatch found
    · rcases List.mem_cons.mp mem with rfl | mem
      · exact Nat.le_refl _
      · exact (waits e mem).mono (Nat.le_refl _)
  · have outer : (Errand.leave d.rules :: rest).Pairwise Errand.Nested :=
      List.pairwise_cons.mpr ⟨fun _ _ => trivial, nested⟩
    refine List.pairwise_append.mpr ⟨?_, outer, fun e fresh e' _ => ?_⟩
    · refine List.pairwise_map.mpr (List.pairwise_of_forall fun p q => ?_)
      exact Errand.nested_run_nil _ _
    · obtain ⟨p, -, rfl⟩ := List.mem_map.mp fresh
      exact Errand.nested_run_nil _ _

/-- Only extending a role hands over to another errand; the other steps have done their part. -/
theorem sound_take {past : List Taken} {s : Step} {future : List Step} {rest : List Errand}
    (sound : Sound ⟨d, .run past (s :: future) :: rest⟩) :
    Sound ⟨d.step (fun _ d => d) s,
      s.errands sources ++ .run (⟨s, d.rules⟩ :: past) future :: rest⟩ := by
  obtain ⟨points, leads, waits, nested⟩ := sound
  obtain ⟨inner, nested⟩ := List.pairwise_cons.mp nested
  have leads : (Errand.run past (s :: future)).Leads d := leads _ rfl
  have waits : ∀ e ∈ rest, e.Waits d := waits
  have taking := d.taking_step s
  generalize d.step (fun _ d => d) s = d' at taking ⊢
  have points := taking.pointsLast points
  have later : ∀ e ∈ rest, e.Waits d' := fun e mem => (waits e mem).mono taking.length_le
  have nested : (Errand.run (⟨s, d.rules⟩ :: past) future :: rest).Pairwise Errand.Nested :=
    List.pairwise_cons.mpr ⟨fun e mem => (inner e mem).take s (waits e mem), nested⟩
  have stays (here : s.errands sources = [])
      (leads : (Errand.run (⟨s, d.rules⟩ :: past) future).Leads d') :
      Sound ⟨d', s.errands sources ++ .run (⟨s, d.rules⟩ :: past) future :: rest⟩ := by
    rw [here]
    refine ⟨points, fun e head => ?_, later, nested⟩
    obtain rfl := Option.some.inj head
    exact leads
  cases taking with
  | register r plain here =>
    refine stays (here sources) fun t found => .inr (.inl ?_)
    rw [Taken.preceding?_of_plain past plain] at found
    obtain rfl := Option.some.inj found
    simp [Draft.register]
  | drop plain here => exact stays (here sources) fun t found => .inr (.inr rfl)
  | explain reason =>
    refine stays rfl fun t found => ?_
    rw [Draft.length_explain, Draft.last_explain]
    exact leads t found
  | extend role =>
    refine sound_of_waits points (List.forall_mem_cons.mpr ⟨trivial, ?_⟩) ?_
    · refine List.forall_mem_cons.mpr ⟨fun t found => ?_, later⟩
      obtain rfl := Option.some.inj found
      exact ⟨role, rfl⟩
    · exact List.pairwise_cons.mpr ⟨fun _ _ => trivial, nested⟩

theorem sound_next {c c' : Chronicle} (sound : c.Sound) (next : c.next? u sources = some c') :
    c'.Sound := by
  obtain ⟨d, agenda⟩ := c
  cases agenda with
  | nil => cases next
  | cons e rest =>
    have waits : ∀ e ∈ rest, e.Waits d := sound.waits
    have nested := (List.pairwise_cons.mp sound.nested).2
    cases e with
    | call visited role =>
      have next : (if role ∈ d.applying then _ else _) = some c' := next
      split at next
      case isTrue =>
        obtain rfl := Option.some.inj next
        exact sound_of_waits sound.points waits nested
      case isFalse =>
        obtain rfl := Option.some.inj next
        exact sound_enter sound.points waits nested
    | run past future =>
      cases future with
      | nil =>
        obtain rfl := Option.some.inj next
        exact sound_of_waits sound.points waits nested
      | cons s future =>
        obtain rfl := Option.some.inj next
        exact sound_take sound
    | leave before =>
      obtain rfl := Option.some.inj next
      exact sound_of_waits sound.points (fun e mem => (waits e mem).mono (Nat.le_refl _)) nested

theorem sound_of_reaches {c c' : Chronicle} (sound : c.Sound) (run : Reaches u sources c c') :
    c'.Sound := by
  induction run with
  | refl => exact sound
  | tail _ next sound => exact sound_next sound next

end Sound

/-! ### Reasons -/

/-- A reason is about to go to a rule that was not registered in the step before it. -/
def Astray (c : Chronicle) : Prop :=
  ∃ past reason future rest, c.agenda = .run past (.because reason :: future) :: rest ∧
    c.draft.last ≠ none ∧
    ∀ t, Taken.preceding? past = some t → c.draft.rules.length ≤ t.before.length

section Reasons

variable {u : Actor} {sources : List Permissions} {d : Draft} {e : Errand} {rest : List Errand}

theorem explain_sound {past : List Taken} {reason : String} {future : List Step}
    (sound : Sound ⟨d, .run past (.because reason :: future) :: rest⟩) :
    (d.explain reason).rules = d.rules ∨
      ∃ earlier r, d.rules = earlier ++ [r] ∧
        (d.explain reason).rules = earlier ++ [r.because reason] ∧
        ((∃ t, Taken.preceding? past = some t ∧ t.before.length ≤ earlier.length) ∨
          Astray ⟨d, .run past (.because reason :: future) :: rest⟩ ∧
            ∀ t, Taken.preceding? past = some t → ∃ role, t.step = .extend role) := by
  have points : d.PointsLast := sound.points
  rcases Draft.explain_cases points reason with ⟨-, same⟩ | ⟨earlier, r, rules, last, changed⟩
  · exact .inl (congrArg Draft.rules same)
  refine .inr ⟨earlier, r, rules, congrArg Draft.rules changed, ?_⟩
  have length : d.rules.length = earlier.length + 1 := by simp [rules]
  by_cases placed : ∃ t, Taken.preceding? past = some t ∧ t.before.length ≤ earlier.length
  · exact .inl placed
  have pointed : d.last ≠ none := by simp [last]
  refine .inr ⟨⟨past, reason, future, rest, rfl, pointed, fun t found => ?_⟩, fun t found => ?_⟩
  · have late : ¬ t.before.length ≤ earlier.length := fun le => placed ⟨t, found, le⟩
    show d.rules.length ≤ t.before.length
    omega
  · have leads : (Errand.run past (.because reason :: future)).Leads d := sound.leads _ rfl
    rcases leads t found with extended | grown | none
    · exact extended
    · exact absurd ⟨t, found, by omega⟩ placed
    · rw [last] at none
      cases none

/-- Only a step of a handler changes rules, and what is left to do after it stays as it is. -/
theorem next_cases {c : Chronicle} (next : next? u sources ⟨d, e :: rest⟩ = some c) :
    (∃ front, c.agenda = front ++ rest) ∧
      (c.draft.rules = d.rules ∨
        ∃ past s future, e = .run past (s :: future) ∧ d.Taking s c.draft) := by
  cases e with
  | call visited role =>
    have next : (if role ∈ d.applying then _ else _) = some c := next
    split at next
    case isTrue =>
      obtain rfl := Option.some.inj next
      exact ⟨⟨[], rfl⟩, .inl rfl⟩
    case isFalse =>
      obtain rfl := Option.some.inj next
      refine ⟨⟨visited.map (fun p => .run [] (p.program role u)) ++ [.leave d.rules], ?_⟩, .inl rfl⟩
      simp
  | run past future =>
    cases future with
    | nil =>
      obtain rfl := Option.some.inj next
      exact ⟨⟨[], rfl⟩, .inl rfl⟩
    | cons s future =>
      obtain rfl := Option.some.inj next
      refine ⟨⟨s.errands sources ++ [.run (⟨s, d.rules⟩ :: past) future], by simp⟩, .inr ?_⟩
      exact ⟨past, s, future, rfl, d.taking_step s⟩
  | leave before =>
    obtain rfl := Option.some.inj next
    exact ⟨⟨[], rfl⟩, .inl rfl⟩

theorem length_le_of_reaches {c c' : Chronicle} (run : Reaches u sources c c') :
    c.draft.rules.length ≤ c'.draft.rules.length := by
  induction run with
  | refl => exact Nat.le_refl _
  | @tail b c' _ next ih =>
    refine Nat.le_trans ih ?_
    obtain ⟨d, agenda⟩ := b
    cases agenda with
    | nil => cases next
    | cons e rest =>
      rcases (next_cases next).2 with same | ⟨past, s, future, -, taking⟩
      · exact (congrArg List.length same).ge
      · exact taking.length_le

/-- While a role is applied, only a reason that goes astray reaches the rules before it. -/
theorem take_next {c : Chronicle} {before : List Rule} {n : Nat} (sound : Sound ⟨d, e :: rest⟩)
    (within : .leave before ∈ rest) (le : n ≤ before.length)
    (clear : Astray ⟨d, e :: rest⟩ → n < d.rules.length)
    (next : next? u sources ⟨d, e :: rest⟩ = some c) :
    c.draft.rules.take n = d.rules.take n := by
  have wait : before.length ≤ d.rules.length := sound.waits _ within
  rcases (next_cases next).2 with same | ⟨past, s, future, rfl, taking⟩
  · rw [same]
  generalize c.draft = d' at taking ⊢
  cases taking with
  | register r plain here => exact List.take_append_of_le_length (Nat.le_trans le wait)
  | drop plain here => rfl
  | extend role => rfl
  | explain reason =>
    rcases explain_sound sound with same | ⟨earlier, r, rules, changed, place⟩
    · rw [same]
    have bound : n ≤ earlier.length := by
      rcases place with ⟨t, found, placed⟩ | ⟨astray, -⟩
      · have nested : (Errand.run past (.because reason :: future)).Nested (.leave before) :=
          (List.pairwise_cons.mp sound.nested).1 _ within
        have later : before.length ≤ t.before.length := nested t (List.mem_of_find?_eq_some found)
        omega
      · have ahead := clear astray
        rw [rules, List.length_append] at ahead
        exact Nat.le_of_lt_succ ahead
    rw [changed, rules, List.take_append_of_le_length bound, List.take_append_of_le_length bound]

/-- The application of a role comes to its end with the rules before it that no reason going astray
has reached. -/
theorem leaves_of_reaches {c last : Chronicle} (run : Reaches u sources c last)
    (finished : last.agenda = []) {front : List Errand} {before : List Rule} (sound : c.Sound)
    (within : c.agenda = front ++ .leave before :: rest) :
    ∃ after : Draft, Reaches u sources c ⟨after, rest⟩ ∧
      ∀ n ≤ before.length,
        (∀ m, Reaches u sources c m → Reaches u sources m ⟨after, rest⟩ → m.Astray →
          n < m.draft.rules.length) →
        after.rules.take n = c.draft.rules.take n := by
  induction run using Relation.ReflTransGen.head_induction_on generalizing front with
  | refl =>
    rw [finished] at within
    exact absurd within.symm (by simp)
  | @head c c' next _ ih =>
    obtain ⟨d, agenda⟩ := c
    obtain rfl : agenda = front ++ .leave before :: rest := within
    cases front with
    | nil =>
      obtain rfl := Option.some.inj next
      exact ⟨_, .single rfl, fun n _ _ => rfl⟩
    | cons e front =>
      obtain ⟨⟨new, agenda⟩, -⟩ := next_cases next
      have within : c'.agenda = (new ++ front) ++ .leave before :: rest :=
        agenda.trans (List.append_assoc ..).symm
      obtain ⟨after, onward, keeps⟩ := ih (sound_next sound next) within
      have reaches : Reaches u sources _ _ := .head next onward
      refine ⟨after, reaches, fun n le clear => ?_⟩
      have inside : .leave before ∈ front ++ .leave before :: rest := by simp
      calc after.rules.take n
          = c'.draft.rules.take n := keeps n le fun m path => clear m (.head next path)
        _ = d.rules.take n := take_next sound inside le (clear _ .refl reaches) next

/-- A role is applied to its end; the rules before it but the last stay as they are, and all of them
do if no reason goes astray before the role has registered a rule. -/
theorem call_keeps {visited : List Permissions} {role : String}
    (reached : Reaches u sources (start u sources) ⟨d, .call visited role :: rest⟩) :
    ∃ after : Draft, Reaches u sources ⟨d, .call visited role :: rest⟩ ⟨after, rest⟩ ∧
      d.rules.dropLast <+: after.rules ∧
      ((∀ m, Reaches u sources ⟨d, .call visited role :: rest⟩ m →
        Reaches u sources m ⟨after, rest⟩ → m.Astray →
          d.rules.length < m.draft.rules.length) → d.rules <+: after.rules) := by
  by_cases applying : role ∈ d.applying
  · exact ⟨d, .single (if_pos applying), List.dropLast_prefix _, fun _ => List.prefix_rfl⟩
  have sound := sound_of_reaches (sound_start u sources) reached
  have enters : next? u sources ⟨d, .call visited role :: rest⟩ =
      some ⟨{ d with applying := role :: d.applying },
        visited.map (fun p => .run [] (p.program role u)) ++ .leave d.rules :: rest⟩ :=
    if_neg applying
  obtain ⟨after, onward, keeps⟩ := leaves_of_reaches (reaches_end (reached.tail enters)) rfl
    (sound_next sound enters) rfl
  refine ⟨after, .head enters onward, ?_, fun clear => ?_⟩
  · rw [List.prefix_iff_eq_take, List.length_dropLast, List.dropLast_eq_take]
    refine (keeps _ (Nat.sub_le _ _) fun m path _ astray => ?_).symm
    obtain ⟨_, _, _, _, _, pointed, _⟩ := astray
    obtain ⟨place, last⟩ := Option.ne_none_iff_exists'.mp pointed
    have length := (sound_of_reaches (sound_next sound enters) path).points place last
    have grown : d.rules.length ≤ m.draft.rules.length := length_le_of_reaches path
    show d.rules.length - 1 < m.draft.rules.length
    omega
  · have kept := keeps _ (Nat.le_refl _) fun m path => clear m (.head enters path)
    rw [List.prefix_iff_eq_take, kept, List.take_length]

/-- In the building of an actor's rules, which goes on to its end, a reason changes no rule, or the
reason of the rule registered last of all. The step before it in the same handler registered that
rule, or else the reason goes astray: it is the first that its handler does, or comes after
extending a role that registers nothing. Applying a role leaves the rules before it as they were,
but for the last of them, and that one too unless a reason goes astray before the role has
registered a rule. -/
theorem because_explains_preceding (u : Actor) (sources : List Permissions) {c : Chronicle}
    (reached : Reaches u sources (start u sources) c) :
    Reaches u sources c ⟨draftFor u sources, []⟩ ∧
    (∀ past reason future rest, c.agenda = .run past (.because reason :: future) :: rest →
      ∃ d : Draft, c.next? u sources =
          some ⟨d, .run (⟨.because reason, c.draft.rules⟩ :: past) future :: rest⟩ ∧
        (d.rules = c.draft.rules ∨
          ∃ earlier r, c.draft.rules = earlier ++ [r] ∧ d.rules = earlier ++ [r.because reason] ∧
            ((∃ t, Taken.preceding? past = some t ∧ t.before.length ≤ earlier.length) ∨
              c.Astray ∧
                ∀ t, Taken.preceding? past = some t → ∃ role, t.step = .extend role))) ∧
    ∀ visited role rest, c.agenda = .call visited role :: rest →
      ∃ after : Draft, Reaches u sources c ⟨after, rest⟩ ∧
        c.draft.rules.dropLast <+: after.rules ∧
        ((∀ m, Reaches u sources c m → Reaches u sources m ⟨after, rest⟩ → m.Astray →
          c.draft.rules.length < m.draft.rules.length) → c.draft.rules <+: after.rules) := by
  obtain ⟨d, agenda⟩ := c
  refine ⟨reaches_end reached, ?_, ?_⟩
  · rintro past reason future rest rfl
    have sound := sound_of_reaches (sound_start u sources) reached
    exact ⟨d.explain reason, rfl, explain_sound sound⟩
  · rintro visited role rest rfl
    exact call_keeps reached

/-- A denial gets the reason that the same handler gives after it. -/
theorem because_explains_preceding_archived :
    let sources : List Permissions :=
      [⟨[("member", fun _ => [.can "read" "A", .cannot "delete" "A", .because "archived"])]⟩]
    let u : Actor := { Actor.ofId "u" with role := some "member" }
    let past : List Taken :=
      [⟨.cannot "delete" "A", [.allow "read" "A"]⟩, ⟨.can "read" "A", []⟩]
    let c : Chronicle := ⟨⟨[.allow "read" "A", .deny "delete" "A"], some 1, ["member"]⟩,
      [.run past [.because "archived"], .leave []]⟩
    Reaches u sources (start u sources) c ∧ Reaches u sources c ⟨draftFor u sources, []⟩ ∧
      ∃ d : Draft, (∃ agenda, c.next? u sources = some ⟨d, agenda⟩) ∧
        ∃ earlier r, c.draft.rules = earlier ++ [r] ∧ d.rules = earlier ++ [r.because "archived"] ∧
          ∃ t, Taken.preceding? past = some t ∧ t.before.length ≤ earlier.length := by
  intro sources u past c
  have reached : Reaches u sources (start u sources) c := by
    refine Relation.ReflTransGen.trans (b := ⟨.empty, [.call sources "member"]⟩) ?_ ?_
    · exact .head rfl (.head rfl (.head rfl (.head rfl (.head rfl (.head rfl .refl)))))
    · exact .head rfl (.head rfl (.head rfl .refl))
  obtain ⟨ends, explains, -⟩ := because_explains_preceding u sources reached
  obtain ⟨d, next, same | ⟨earlier, r, rules, changed, placed | ⟨-, extended⟩⟩⟩ :=
    explains past "archived" [] [.leave []] rfl
  · obtain ⟨rfl, -⟩ := Chronicle.mk.inj (Option.some.inj next)
    cases same
  · exact ⟨reached, ends, d, ⟨_, next⟩, earlier, r, rules, changed, placed⟩
  · obtain ⟨role, extended⟩ := extended _ rfl
    cases extended

/-- After extending a role that nobody has handlers for, a handler gives its reason to the rule that
another role registered. -/
theorem because_explains_other_role :
    let sources : List Permissions :=
      [⟨[("everyone", fun _ => [.can "read" "T"]),
        ("member", fun _ => [.extend "ghost", .because "x"])]⟩]
    let u : Actor := { Actor.ofId "u" with role := some "member" }
    let before : List Rule := [.allow "read" "T"]
    let explained : List Rule := [(Rule.allow "read" "T").because "x"]
    let past : List Taken := [⟨.extend "ghost", before⟩]
    let c : Chronicle := ⟨⟨before, some 0, []⟩, [.call sources "member"]⟩
    let m : Chronicle := ⟨⟨before, some 0, ["member"]⟩,
      [.run past [.because "x"], .leave before]⟩
    Reaches u sources (start u sources) c ∧ Reaches u sources c m ∧
      Taken.preceding? past = some ⟨.extend "ghost", m.draft.rules⟩ ∧
      m.next? u sources = some ⟨⟨explained, some 0, ["member"]⟩,
        [.run (⟨.because "x", before⟩ :: past) [], .leave before]⟩ ∧
      (buildAbility u sources false).rules = explained ∧ ¬ before <+: explained := by
  intro sources u before explained past c m
  have reached : Reaches u sources (start u sources) c :=
    .head rfl (.head rfl (.head rfl (.head rfl (.head rfl (.head rfl (.head rfl .refl))))))
  have entered : Reaches u sources c m :=
    .head rfl (.head rfl (.head rfl (.head rfl (.head rfl .refl))))
  refine ⟨reached, entered, rfl, rfl, rfl, fun kept => ?_⟩
  have same : before = explained := kept.eq_of_length rfl
  exact nomatch congrArg Rule.reason (List.cons.inj same).1

end Reasons

end Chronicle

end AccessRules

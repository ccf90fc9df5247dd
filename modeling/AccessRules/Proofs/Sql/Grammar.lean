import AccessRules.Proofs.Sql.Selection

/-! The grammar of conditions, apart from how they are read. A disjunction is made of conjunctions
with `or` between them, a conjunction of factors with `and` between them, and a factor is a test, a
constant, a negated factor or a disjunction in parentheses. The reader accepts exactly this grammar,
so a text has one reading at most, and the clause of a fragment has the one that it stands for. -/

namespace AccessRules

namespace Sql

namespace Condition

/-- The conjunction of some conditions, which is the condition itself if it is only one. -/
def allOf : List Condition → Condition
  | [c] => c
  | cs => all cs

def anyOf : List Condition → Condition
  | [c] => c
  | cs => any cs

end Condition

/-! ### Grammar -/

namespace Grammar

/-- Parameters with commas between them. -/
inductive Operands : List Token → List Value → Prop
  | one (v : Value) : Operands [.param v] [v]
  | more (v : Value) {ts : List Token} {vs : List Value} :
      Operands ts vs → Operands (.param v :: .comma :: ts) (v :: vs)

mutual

inductive Factor : List Token → Condition → Prop
  | true : Factor [.keyword .true] (.constant true)
  | false : Factor [.keyword .false] (.constant false)
  | null (name : String) : Factor [.column name, .keyword .is, .keyword .null] (.null name true)
  | notNull (name : String) :
      Factor [.column name, .keyword .is, .keyword .not, .keyword .null] (.null name false)
  | compare (name : String) (c : Comparison) (v : Value) :
      Factor [.column name, .comparison c, .param v] (.compare name c v)
  | member (name : String) {ts : List Token} {vs : List Value} : Operands ts vs →
      Factor (.column name :: .keyword .in :: .opening :: ts ++ [.closing]) (.member name true vs)
  | notMember (name : String) {ts : List Token} {vs : List Value} : Operands ts vs →
      Factor (.column name :: .keyword .not :: .keyword .in :: .opening :: ts ++ [.closing])
        (.member name false vs)
  | not {ts : List Token} {c : Condition} : Factor ts c → Factor (.keyword .not :: ts) (.not c)
  | group {ts : List Token} {cs : List Condition} :
      Disjuncts ts cs → Factor (.opening :: ts ++ [.closing]) (.anyOf cs)

/-- Factors with `and` between them. -/
inductive Conjuncts : List Token → List Condition → Prop
  | one {ts : List Token} {c : Condition} : Factor ts c → Conjuncts ts [c]
  | more {ts us : List Token} {c : Condition} {cs : List Condition} :
      Factor ts c → Conjuncts us cs → Conjuncts (ts ++ .keyword .and :: us) (c :: cs)

/-- Conjunctions with `or` between them. -/
inductive Disjuncts : List Token → List Condition → Prop
  | one {ts : List Token} {cs : List Condition} : Conjuncts ts cs → Disjuncts ts [.allOf cs]
  | more {ts us : List Token} {cs ds : List Condition} :
      Conjuncts ts cs → Disjuncts us ds → Disjuncts (ts ++ .keyword .or :: us) (.allOf cs :: ds)

end

/-- The tokens are a condition. -/
def Sentence (ts : List Token) (c : Condition) : Prop := ∃ cs, Disjuncts ts cs ∧ c = .anyOf cs

end Grammar

open Grammar

namespace Item

/-! ### What is read is a condition -/

/-- The tokens that an item was read from. -/
inductive Spells : Item → List Token → Prop
  | token (t : Token) : Spells (token t) [t]
  | operands {ts : List Token} {vs : List Value} :
      Operands ts vs → Spells (operands vs) (.opening :: ts ++ [.closing])
  | condition {ts : List Token} {c : Condition} :
      Sentence ts c → Spells (condition c) (.opening :: ts ++ [.closing])

inductive Spelled : List Item → List Token → Prop
  | nil : Spelled [] []
  | cons {i : Item} {items : List Item} {ts us : List Token} :
      Spells i ts → Spelled items us → Spelled (i :: items) (ts ++ us)

theorem spelled_nil {ts : List Token} : Spelled [] ts ↔ ts = [] := by
  constructor
  · rintro ⟨⟩
    rfl
  · rintro rfl
    exact .nil

theorem spelled_cons {i : Item} {items : List Item} {ts : List Token} :
    Spelled (i :: items) ts ↔ ∃ us vs, Spells i us ∧ Spelled items vs ∧ ts = us ++ vs := by
  constructor
  · rintro ⟨⟩
    exact ⟨_, _, ‹_›, ‹_›, rfl⟩
  · rintro ⟨us, vs, head, tail, rfl⟩
    exact .cons head tail

theorem spelled_singleton {i : Item} {ts : List Token} : Spelled [i] ts ↔ Spells i ts := by
  simp [spelled_cons, spelled_nil]

theorem spelled_append {items more : List Item} {ts : List Token} :
    Spelled (items ++ more) ts ↔ ∃ us vs, Spelled items us ∧ Spelled more vs ∧ ts = us ++ vs := by
  induction items generalizing ts with
  | nil => simp [spelled_nil]
  | cons i items ih =>
    simp only [List.cons_append, spelled_cons, ih]
    constructor
    · rintro ⟨us, _, head, ⟨vs, ws, tail, rest, rfl⟩, rfl⟩
      exact ⟨us ++ vs, ws, ⟨us, vs, head, tail, rfl⟩, rest, by simp⟩
    · rintro ⟨_, ws, ⟨us, vs, head, tail, rfl⟩, rest, rfl⟩
      exact ⟨us, vs ++ ws, head, ⟨vs, ws, tail, rest, rfl⟩, by simp⟩

theorem eq_of_spelled (tokens : List Token) {ts : List Token}
    (h : Spelled (tokens.map token) ts) : ts = tokens := by
  induction tokens generalizing ts with
  | nil => exact spelled_nil.mp h
  | cons t tokens ih =>
    obtain ⟨us, vs, ⟨⟩, tail, rfl⟩ := spelled_cons.mp h
    rw [ih tail, List.singleton_append]

/-- Items that begin with tokens were read from these tokens and what the others were read from. -/
theorem spelled_after (tokens : List Token) {items : List Item} {ts : List Token}
    (h : Spelled (tokens.map token ++ items) ts) : ∃ us, Spelled items us ∧ ts = tokens ++ us := by
  obtain ⟨us, vs, head, tail, rfl⟩ := spelled_append.mp h
  exact ⟨vs, tail, by rw [eq_of_spelled tokens head]⟩

theorem operands_sound {items : List Item} {vs : List Value} {ts : List Token}
    (read : operands? items = some vs) (spelled : Spelled items ts) : Operands ts vs := by
  fun_induction operands? items generalizing vs ts with
  | case1 v =>
    obtain rfl := Option.some.inj read
    obtain rfl := eq_of_spelled [.param v] spelled
    exact .one v
  | case2 v rest ih =>
    obtain ⟨ws, others, rfl⟩ := Option.map_eq_some_iff.mp read
    obtain ⟨us, tail, rfl⟩ := spelled_after [.param v, .comma] spelled
    exact .more v (ih others tail)
  | case3 => contradiction

theorem factor_sound {items : List Item} {c : Condition} {ts : List Token}
    (read : factor? items = some c) (spelled : Spelled items ts) : Grammar.Factor ts c := by
  fun_induction factor? items generalizing c ts with
  | case1 d =>
    obtain rfl := Option.some.inj read
    cases spelled_singleton.mp spelled with
    | condition sentence =>
      obtain ⟨cs, disjuncts, rfl⟩ := sentence
      exact .group disjuncts
  | case2 =>
    obtain rfl := Option.some.inj read
    obtain rfl := eq_of_spelled [.keyword .true] spelled
    exact .true
  | case3 =>
    obtain rfl := Option.some.inj read
    obtain rfl := eq_of_spelled [.keyword .false] spelled
    exact .false
  | case4 name =>
    obtain rfl := Option.some.inj read
    obtain rfl := eq_of_spelled [.column name, .keyword .is, .keyword .null] spelled
    exact .null name
  | case5 name =>
    obtain rfl := Option.some.inj read
    obtain rfl := eq_of_spelled [.column name, .keyword .is, .keyword .not, .keyword .null] spelled
    exact .notNull name
  | case6 name c v =>
    obtain rfl := Option.some.inj read
    obtain rfl := eq_of_spelled [.column name, .comparison c, .param v] spelled
    exact .compare name c v
  | case7 name vs =>
    obtain rfl := Option.some.inj read
    obtain ⟨us, group, rfl⟩ := spelled_after [.column name, .keyword .in] spelled
    cases spelled_singleton.mp group with
    | operands operands => exact .member name operands
  | case8 name vs =>
    obtain rfl := Option.some.inj read
    obtain ⟨us, group, rfl⟩ := spelled_after [.column name, .keyword .not, .keyword .in] spelled
    cases spelled_singleton.mp group with
    | operands operands => exact .notMember name operands
  | case9 rest ih =>
    obtain ⟨d, inner, rfl⟩ := Option.map_eq_some_iff.mp read
    obtain ⟨us, tail, rfl⟩ := spelled_after [.keyword .not] spelled
    exact .not (ih inner tail)
  | case10 => contradiction

theorem joined_splitOnP (word : Keyword) (items : List Item) :
    joined word (items.splitOnP (isWord word)) = items := by
  induction items with
  | nil => rfl
  | cons i items ih =>
    obtain ⟨part, rest, split⟩ := List.exists_cons_of_ne_nil
      (List.splitOnP_ne_nil (isWord word) items)
    rw [List.splitOnP_cons_eq_if_modifyHead]
    rw [split] at ih ⊢
    split
    case isTrue is_word =>
      obtain rfl : i = token (.keyword word) := by
        cases i with
        | token t => cases t <;> simp_all [isWord]
        | _ => simp [isWord] at is_word
      rw [joined, List.intercalate_cons_cons]
      simpa [joined] using ih
    case isFalse =>
      rw [List.modifyHead_cons]
      cases rest with
      | nil => simpa [joined] using ih
      | cons next rest => simpa [joined, List.intercalate_cons_cons] using ih

/-- Parts that are read as `P`, with a word between them, were read from parts with the word between
them. -/
theorem parts_sound {word : Keyword} {read? : List Item → Option Condition}
    {P : List Token → List Condition → Prop}
    (one : ∀ {items c ts}, read? items = some c → Spelled items ts → P ts [c])
    (more : ∀ {items c ts us cs}, read? items = some c → Spelled items ts → P us cs →
      P (ts ++ .keyword word :: us) (c :: cs))
    {items : List Item} {cs : List Condition} {ts : List Token}
    (read : (items.splitOnP (isWord word)).mapM read? = some cs) (spelled : Spelled items ts) :
    P ts cs := by
  rw [← joined_splitOnP word items] at spelled
  have some_part := List.splitOnP_ne_nil (isWord word) items
  generalize items.splitOnP (isWord word) = parts at read spelled some_part
  induction parts generalizing cs ts with
  | nil => contradiction
  | cons part rest ih =>
    rw [List.mapM_cons] at read
    obtain ⟨c, head, read⟩ := Option.bind_eq_some_iff.mp read
    obtain ⟨ds, tail, read⟩ := Option.bind_eq_some_iff.mp read
    obtain rfl := Option.some.inj read
    cases rest with
    | nil =>
      obtain rfl := Option.some.inj tail
      exact one head (by simpa [joined] using spelled)
    | cons next rest =>
      rw [joined, List.intercalate_cons_cons, List.append_assoc] at spelled
      obtain ⟨us, others, first, others_spelled, rfl⟩ := spelled_append.mp spelled
      obtain ⟨vs, last, rfl⟩ := spelled_after [.keyword word] others_spelled
      exact more head first (ih tail last (by simp))

theorem conjunction?_eq (items : List Item) :
    conjunction? items = ((items.splitOnP (isWord .and)).mapM factor?).map .allOf := by
  rfl

theorem disjunction?_eq (items : List Item) :
    disjunction? items = ((items.splitOnP (isWord .or)).mapM conjunction?).map .anyOf := by
  rfl

theorem conjunction_sound {items : List Item} {c : Condition} {ts : List Token}
    (read : conjunction? items = some c) (spelled : Spelled items ts) :
    ∃ cs, Conjuncts ts cs ∧ c = .allOf cs := by
  rw [conjunction?_eq] at read
  obtain ⟨cs, parts, rfl⟩ := Option.map_eq_some_iff.mp read
  refine ⟨cs, parts_sound ?_ ?_ parts spelled, rfl⟩
  · intro items c ts read spelled
    exact .one (factor_sound read spelled)
  · intro items c ts us cs read spelled
    exact .more (factor_sound read spelled)

theorem disjunction_sound {items : List Item} {c : Condition} {ts : List Token}
    (read : disjunction? items = some c) (spelled : Spelled items ts) : Sentence ts c := by
  rw [disjunction?_eq] at read
  obtain ⟨cs, parts, rfl⟩ := Option.map_eq_some_iff.mp read
  refine ⟨cs, parts_sound ?_ ?_ parts spelled, rfl⟩
  · intro items c ts read spelled
    obtain ⟨ds, conjuncts, rfl⟩ := conjunction_sound read spelled
    exact .one conjuncts
  · intro items c ts us cs read spelled
    obtain ⟨ds, conjuncts, rfl⟩ := conjunction_sound read spelled
    exact .more conjuncts

theorem close_sound {items : List Item} {i : Item} {ts : List Token}
    (read : close? items = some i) (spelled : Spelled items ts) :
    Spells i (.opening :: ts ++ [.closing]) := by
  unfold close? at read
  split at read
  · rename_i vs operands
    obtain rfl := Option.some.inj read
    exact .operands (operands_sound operands spelled)
  · obtain ⟨c, disjunction, rfl⟩ := Option.map_eq_some_iff.mp read
    exact .condition (disjunction_sound disjunction spelled)

/-- The open groups, innermost first, were read from the tokens. -/
inductive Opened : List (List Item) → List Token → Prop
  | outermost {items : List Item} {ts : List Token} : Spelled items ts → Opened [items] ts
  | inner {items : List Item} {groups : List (List Item)} {ts us : List Token} :
      Opened groups ts → Spelled items us → Opened (items :: groups) (ts ++ .opening :: us)

/-- One more item in the innermost group is read from one more piece of the text. -/
theorem Opened.concat {items : List Item} {groups : List (List Item)} {ts us : List Token}
    {i : Item} (opened : Opened (items :: groups) ts) (spells : Spells i us) :
    Opened ((items ++ [i]) :: groups) (ts ++ us) := by
  have last : ∀ {vs}, Spelled items vs → Spelled (items ++ [i]) (vs ++ us) := fun spelled =>
    spelled_append.mpr ⟨_, us, spelled, spelled_singleton.mpr spells, rfl⟩
  cases opened with
  | outermost spelled => exact .outermost (last spelled)
  | inner opened spelled => simpa using Opened.inner opened (last spelled)

theorem step_sound {groups next : List (List Item)} {t : Token} {ts : List Token}
    (read : step? groups t = some next) (opened : Opened groups ts) : Opened next (ts ++ [t]) := by
  unfold step? at read
  split at read
  · obtain rfl := Option.some.inj read
    exact .inner opened .nil
  · obtain ⟨i, close, rfl⟩ := Option.map_eq_some_iff.mp read
    cases opened with
    | inner opened spelled => simpa using opened.concat (close_sound close spelled)
  · contradiction
  · obtain rfl := Option.some.inj read
    exact opened.concat (.token t)
  · contradiction

theorem run_sound {tokens : List Token} {groups last : List (List Item)} {ts : List Token}
    (read : tokens.foldlM step? groups = some last) (opened : Opened groups ts) :
    Opened last (ts ++ tokens) := by
  induction tokens generalizing groups ts with
  | nil =>
    obtain rfl := Option.some.inj read
    simpa using opened
  | cons t rest ih =>
    rw [List.foldlM_cons] at read
    obtain ⟨next, step, read⟩ := Option.bind_eq_some_iff.mp read
    simpa using ih read (step_sound step opened)

/-! ### What is a condition is read -/

/-- The tokens are read as the items, whatever stands before them in their group. -/
def Runs (ts : List Token) (items : List Item) : Prop :=
  ∀ inner groups, ts.foldlM step? (inner :: groups) = some ((inner ++ items) :: groups)

theorem Runs.append {ts us : List Token} {items more : List Item} (head : Runs ts items)
    (tail : Runs us more) : Runs (ts ++ us) (items ++ more) := by
  intro inner groups
  rw [List.foldlM_append, head]
  simpa using tail (inner ++ items) groups

theorem runs_word (word : Keyword) : Runs [.keyword word] [token (.keyword word)] := fun _ _ => rfl

theorem runs_operands {ts : List Token} {vs : List Value} (h : Operands ts vs) :
    Runs (.opening :: ts ++ [.closing]) [operands vs] := by
  have plain : ts.all isPlain := by
    induction h with
    | one v => rfl
    | more v _ ih => simpa [isPlain] using ih
  have read : operands? (ts.map token) = some vs := by
    induction h with
    | one v => rfl
    | more v _ ih => simp [operands?, ih (by simpa [isPlain] using plain)]
  refine run_group (run_plain plain []) ?_
  rw [close?, List.nil_append, read]

/-- The items are parts with a word between them, which are read as the conditions; they are no list
of parameters, whatever follows. -/
structure Parts (word : Keyword) (read? : List Item → Option Condition) (items : List Item)
    (cs : List Condition) : Prop where
  reads : (items.splitOnP (isWord word)).mapM read? = some cs
  no_operands : ∀ more, operands? (items ++ more) = none

section Parts

variable {word : Keyword} {read? : List Item → Option Condition} {items : List Item}
  {c : Condition} (free : ∀ i ∈ items, i.isWord word = false) (read : read? items = some c)
  (no_operands : ∀ more, operands? (items ++ more) = none)

include free read no_operands

theorem parts_one : Parts word read? items [c] := by
  refine ⟨?_, no_operands⟩
  simp [List.splitOnP_eq_singleton free, read]

theorem parts_more {rest : List Item} {cs : List Condition} (parts : Parts word read? rest cs) :
    Parts word read? (items ++ token (.keyword word) :: rest) (c :: cs) := by
  refine ⟨?_, fun more => ?_⟩
  · rw [List.splitOnP_append_cons_of_forall_mem free _ (by simp [isWord])]
    simp [read, parts.reads]
  · rw [List.append_assoc]
    exact no_operands _

end Parts

mutual

theorem reads_of_factor {ts : List Token} {c : Condition} :
    Grammar.Factor ts c → Reads ts c
  | .true => reads_constant true
  | .false => reads_constant false
  | .null name => reads_nullTest name true
  | .notNull name => reads_nullTest name false
  | .compare name c v => reads_comparison name c v
  | .member name values => reads_member name true (runs_operands values)
  | .notMember name values => reads_member name false (runs_operands values)
  | .not factor => (reads_of_factor factor).not
  | .group disjuncts => by
    obtain ⟨items, run, parts⟩ := runs_of_disjuncts disjuncts
    refine ⟨[condition _], fun inner groups => ?_, factor_condition _⟩
    apply run_group (fun groups => run [] groups)
    have no_operands : operands? items = none := by simpa using parts.no_operands []
    simp [close?, no_operands, disjunction?_eq, parts.reads]

theorem runs_of_conjuncts {ts : List Token} {cs : List Condition} : Conjuncts ts cs →
    ∃ items, Runs ts items ∧ Parts .and factor? items cs ∧ ∀ i ∈ items, i.isWord .or = false
  | .one factor => by
    obtain ⟨items, run, factor⟩ := reads_of_factor factor
    exact ⟨items, run, parts_one factor.no_and factor.reads (operands?_of_factor factor),
      factor.no_or⟩
  | .more factor conjuncts => by
    obtain ⟨items, run, factor⟩ := reads_of_factor factor
    obtain ⟨rest, runs, parts, no_or⟩ := runs_of_conjuncts conjuncts
    refine ⟨_, Runs.append run ((runs_word .and).append runs),
      parts_more factor.no_and factor.reads (operands?_of_factor factor) parts, ?_⟩
    intro i hi
    rcases List.mem_append.mp hi with hi | hi
    · exact factor.no_or i hi
    · rcases List.mem_cons.mp hi with rfl | hi
      · rfl
      · exact no_or i hi

theorem runs_of_disjuncts {ts : List Token} {cs : List Condition} : Disjuncts ts cs →
    ∃ items, Runs ts items ∧ Parts .or conjunction? items cs
  | .one conjuncts => by
    obtain ⟨items, run, parts, no_or⟩ := runs_of_conjuncts conjuncts
    have read := conjunction?_eq items
    rw [parts.reads] at read
    exact ⟨items, run, parts_one no_or read parts.no_operands⟩
  | .more conjuncts disjuncts => by
    obtain ⟨items, run, parts, no_or⟩ := runs_of_conjuncts conjuncts
    obtain ⟨rest, runs, others⟩ := runs_of_disjuncts disjuncts
    have read := conjunction?_eq items
    rw [parts.reads] at read
    exact ⟨_, run.append ((runs_word .or).append runs),
      parts_more no_or read parts.no_operands others⟩

end

end Item

theorem ofTokens?_sound {ts : List Token} {c : Condition}
    (read : Condition.ofTokens? ts = some c) : Sentence ts c := by
  unfold Condition.ofTokens? at read
  obtain ⟨groups, run, read⟩ := Option.bind_eq_some_iff.mp read
  have opened := Item.run_sound run (.outermost .nil)
  split at read
  · cases opened with
    | outermost spelled => exact Item.disjunction_sound read spelled
    | inner none => cases none
  · contradiction

/-- The reader accepts the grammar and nothing else. -/
theorem ofTokens?_eq_some_iff {ts : List Token} {c : Condition} :
    Condition.ofTokens? ts = some c ↔ Sentence ts c := by
  refine ⟨ofTokens?_sound, ?_⟩
  rintro ⟨cs, disjuncts, rfl⟩
  obtain ⟨items, run, parts⟩ := Item.runs_of_disjuncts disjuncts
  simp [Condition.ofTokens?, run [] [], Item.disjunction?_eq, parts.reads]

/-! ### Readings of a text -/

/-- The lexemes of the text are the condition, with the parameters in order for its placeholders. -/
def Condition.IsReading (text : String) (params : List Value) (c : Condition) : Prop :=
  ∃ lexemes tokens, Lexeme.scan? .between text.toList = some lexemes ∧
    Lexeme.bind? params lexemes = some tokens ∧ Sentence tokens c

theorem Condition.isReading_iff {text : String} {params : List Value} {c : Condition} :
    IsReading text params c ↔ read? text params = some c := by
  unfold read?
  constructor
  · rintro ⟨lexemes, tokens, scan, bind, sentence⟩
    simp [scan, bind, ofTokens?_eq_some_iff.mpr sentence]
  · intro read
    obtain ⟨lexemes, scan, read⟩ := Option.bind_eq_some_iff.mp read
    obtain ⟨tokens, bind, read⟩ := Option.bind_eq_some_iff.mp read
    exact ⟨lexemes, tokens, scan, bind, ofTokens?_sound read⟩

/-- The whole text of a fragment has one reading in the grammar, whatever the fields of the formula
are called: the condition that the lowered formula stands for. -/
theorem Fragment.isReading_iff_eq (options : Options) (f : Formula) (c : Condition) :
    Condition.IsReading (ofFormula options f).clause (ofFormula options f).params c ↔
      c = (lower false f).clause.condition := by
  have read := condition?_ofFormula options f
  rw [condition?] at read
  rw [Condition.isReading_iff, read, Option.some.injEq, eq_comm]

end Sql

end AccessRules

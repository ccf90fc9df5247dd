import AccessRules.Proofs.Sql.Condition
import AccessRules.Proofs.Sql.Lexeme
import AccessRules.Sql.Fragment
import Mathlib.Data.List.Forall2

/-! Reading a clause as a condition. The placeholders stand for the parameters in order. A group in
parentheses is read when it closes, as a list of parameters or as a condition, in which `not` binds
tighter than `and` and `and` tighter than `or`. `ofTokens?_tokens` reads the tokens of a clause as
the condition that the clause stands for. -/

namespace AccessRules

namespace Sql

/-! ### Parameters -/

namespace Lexeme

/-- The tokens of some lexemes, where the placeholders stand for the parameters in order; nothing
when their counts differ. -/
def bind? : List Value → List Lexeme → Option (List Token)
  | [], [] => some []
  | _ :: _, [] => none
  | params, keyword k :: rest => (bind? params rest).map (.keyword k :: ·)
  | params, comparison c :: rest => (bind? params rest).map (.comparison c :: ·)
  | params, opening :: rest => (bind? params rest).map (.opening :: ·)
  | params, closing :: rest => (bind? params rest).map (.closing :: ·)
  | params, comma :: rest => (bind? params rest).map (.comma :: ·)
  | params, column name :: rest => (bind? params rest).map (.column name :: ·)
  | v :: params, placeholder _ :: rest => (bind? params rest).map (.param v :: ·)
  | [], placeholder _ :: _ => none

theorem bind?_lexemes (style : Placeholder) (number : UInt64) (tokens : List Token) :
    bind? (tokens.filterMap Token.value?) (Token.lexemes style number tokens) = some tokens := by
  induction tokens generalizing number with
  | nil => rfl
  | cons t rest ih =>
    cases t <;>
      simp [Token.lexemes, Token.lexeme, Token.value?, List.filterMap_cons, bind?, ih]

end Lexeme

/-! ### Groups -/

/-- What stands in a group: a token, or an inner group that has been read. -/
inductive Item where
  | token (t : Token)
  | operands (values : List Value)
  | condition (c : Condition)

namespace Item

def isWord (k : Keyword) : Item → Bool
  | token (.keyword l) => l == k
  | _ => false

/-- A test, a constant or a group, under any count of `not`. -/
def factor? : List Item → Option Condition
  | [condition c] => some c
  | [token (.keyword .true)] => some (.constant true)
  | [token (.keyword .false)] => some (.constant false)
  | [token (.column name), token (.keyword .is), token (.keyword .null)] => some (.null name true)
  | [token (.column name), token (.keyword .is), token (.keyword .not), token (.keyword .null)] =>
    some (.null name false)
  | [token (.column name), token (.comparison c), token (.param v)] => some (.compare name c v)
  | [token (.column name), token (.keyword .in), operands values] => some (.member name true values)
  | [token (.column name), token (.keyword .not), token (.keyword .in), operands values] =>
    some (.member name false values)
  | token (.keyword .not) :: rest => (factor? rest).map .not
  | _ => none

/-- The conjunction of some factors, which is the factor itself if it is only one. -/
def conjunction? (items : List Item) : Option Condition :=
  ((items.splitOnP (isWord .and)).mapM factor?).map fun
    | [c] => c
    | cs => .all cs

def disjunction? (items : List Item) : Option Condition :=
  ((items.splitOnP (isWord .or)).mapM conjunction?).map fun
    | [c] => c
    | cs => .any cs

def operands? : List Item → Option (List Value)
  | [token (.param v)] => some [v]
  | token (.param v) :: token .comma :: rest => (operands? rest).map (v :: ·)
  | _ => none

def close? (items : List Item) : Option Item :=
  match operands? items with
  | some values => some (operands values)
  | none => (disjunction? items).map condition

/-- One token, with the items of the open groups, innermost first. -/
def step? (groups : List (List Item)) (t : Token) : Option (List (List Item)) :=
  match t, groups with
  | .opening, groups => some ([] :: groups)
  | .closing, inner :: outer :: groups => (close? inner).map fun item => (outer ++ [item]) :: groups
  | .closing, _ => none
  | t, inner :: groups => some ((inner ++ [token t]) :: groups)
  | _, [] => none

end Item

namespace Condition

/-- The condition that some tokens are; nothing when they are not one, or a group is open. -/
def ofTokens? (tokens : List Token) : Option Condition := do
  match ← tokens.foldlM Item.step? [[]] with
  | [items] => Item.disjunction? items
  | _ => none

def read? (text : String) (params : List Value) : Option Condition := do
  let lexemes ← Lexeme.scan? .between text.toList
  let tokens ← Lexeme.bind? params lexemes
  ofTokens? tokens

end Condition

/-- The condition of a fragment, as a database reads it. -/
def Fragment.condition? (f : Fragment) : Option Condition := Condition.read? f.clause f.params

/-! ### Reading back what is written -/

theorem read?_write (style : Placeholder) (number : UInt64) (tokens : List Token) :
    Condition.read? (String.ofList (Token.write style number tokens))
      (tokens.filterMap Token.value?) = Condition.ofTokens? tokens := by
  simp [Condition.read?, Lexeme.scan?_write, Lexeme.bind?_lexemes]

namespace Item

def isPlain : Token → Bool
  | .opening | .closing => false
  | _ => true

theorem run_plain {tokens : List Token} (plain : tokens.all isPlain) (inner : List Item)
    (groups : List (List Item)) :
    tokens.foldlM step? (inner :: groups) = some ((inner ++ tokens.map token) :: groups) := by
  induction tokens generalizing inner with
  | nil => simp
  | cons t rest ih =>
    obtain ⟨ht, hrest⟩ := by simpa only [List.all_cons, Bool.and_eq_true] using plain
    have step : step? (inner :: groups) t = some ((inner ++ [token t]) :: groups) := by
      cases t <;> first | rfl | contradiction
    simp [step, ih hrest]

theorem run_group {tokens : List Token} {items : List Item} {item : Item}
    (run : ∀ groups, tokens.foldlM step? ([] :: groups) = some (items :: groups))
    (close : close? items = some item) (inner : List Item) (groups : List (List Item)) :
    (Token.opening :: tokens ++ [Token.closing]).foldlM step? (inner :: groups) =
      some ((inner ++ [item]) :: groups) := by
  have opened : step? (inner :: groups) .opening = some ([] :: inner :: groups) := rfl
  have closed : step? (items :: inner :: groups) .closing =
      some ((inner ++ [item]) :: groups) := by
    simp [step?, close]
  simp [opened, run, closed]

/-! ### Lists of parameters -/

theorem operands?_params (v : Value) (rest : List Value) :
    operands? ((.param v :: rest.flatMap fun w => [.comma, .param w]).map token) =
      some (v :: rest) := by
  induction rest generalizing v with
  | nil => rfl
  | cons w rest ih =>
    have ih := ih w
    simp only [List.map_cons, List.flatMap_cons, List.cons_append, List.nil_append] at ih ⊢
    rw [operands?, ih]
    rfl

theorem run_paramList {values : List Value} (some_value : values ≠ []) (inner : List Item)
    (groups : List (List Item)) :
    (Token.paramList values).foldlM step? (inner :: groups) =
      some ((inner ++ [operands values]) :: groups) := by
  cases values with
  | nil => contradiction
  | cons v rest =>
    have plain : (.param v :: rest.flatMap fun w => [.comma, .param w]).all isPlain := by
      simp [isPlain]
    refine run_group (run_plain plain []) ?_ inner groups
    simp only [close?, List.nil_append, operands?_params]

/-! ### Factors -/

/-- The items are one factor, with no connective outside of its groups. -/
structure Factor (items : List Item) (c : Condition) : Prop where
  reads : factor? items = some c
  no_and : ∀ i ∈ items, i.isWord .and = false
  no_or : ∀ i ∈ items, i.isWord .or = false

theorem Factor.conjunction {items : List Item} {c : Condition} (h : Factor items c) :
    conjunction? items = some c := by
  simp [conjunction?, List.splitOnP_eq_singleton h.no_and, h.reads]

theorem Factor.disjunction {items : List Item} {c : Condition} (h : Factor items c) :
    disjunction? items = some c := by
  simp [disjunction?, List.splitOnP_eq_singleton h.no_or, h.conjunction]

theorem factor_condition (c : Condition) : Factor [condition c] c :=
  ⟨rfl, by simp [isWord], by simp [isWord]⟩

theorem Factor.not {items : List Item} {c : Condition} (h : Factor items c) :
    Factor (token (.keyword .not) :: items) (.not c) := by
  refine ⟨?_, ?_, ?_⟩
  · simp [factor?, h.reads]
  · simpa [isWord] using h.no_and
  · simpa [isWord] using h.no_or

theorem operands?_of_factor {items : List Item} {c : Condition} (h : Factor items c)
    (more : List Item) : operands? (items ++ more) = none := by
  have reads := h.reads
  unfold factor? at reads
  split at reads <;> first | rfl | simp at reads

/-- Items with a word between those of one part and the next. -/
def joined (word : Keyword) (parts : List (List Item)) : List Item :=
  [token (.keyword word)].intercalate parts

theorem splitOnP_joined {word : Keyword} {parts : List (List Item)} (some_part : parts ≠ [])
    (free : ∀ items ∈ parts, ∀ i ∈ items, i.isWord word = false) :
    (joined word parts).splitOnP (isWord word) = parts := by
  induction parts with
  | nil => contradiction
  | cons items rest ih =>
    cases rest with
    | nil => simpa [joined] using List.splitOnP_eq_singleton (free items (by simp))
    | cons next rest =>
      have ih := ih (by simp) fun items h => free items (List.mem_cons_of_mem _ h)
      rw [joined] at ih ⊢
      rw [List.intercalate_cons_cons, List.append_assoc, List.singleton_append,
        List.splitOnP_append_cons_of_forall_mem (free items (by simp)) _ (by simp [isWord]), ih]

theorem mem_joined {word : Keyword} {parts : List (List Item)} {i : Item}
    (h : i ∈ joined word parts) : i = token (.keyword word) ∨ ∃ items ∈ parts, i ∈ items := by
  induction parts with
  | nil => simp [joined] at h
  | cons items rest ih =>
    cases rest with
    | nil => exact .inr ⟨items, by simp, by simpa [joined] using h⟩
    | cons next rest =>
      rw [joined, List.intercalate_cons_cons, List.append_assoc, List.mem_append,
        List.singleton_append, List.mem_cons] at h
      rcases h with h | h | h
      · exact .inr ⟨items, by simp, h⟩
      · exact .inl h
      · rcases ih h with h | ⟨items, hitems, hi⟩
        · exact .inl h
        · exact .inr ⟨items, List.mem_cons_of_mem _ hitems, hi⟩

theorem mapM_of_forall₂ {α β : Type} {f : α → Option β} {xs : List α} {ys : List β}
    (h : List.Forall₂ (fun x y => f x = some y) xs ys) : xs.mapM f = some ys := by
  induction h with
  | nil => rfl
  | cons head _ ih => simp [head, ih]

section Parts

variable {parts : List (List Item)} {cs : List Condition}

theorem exists_factor (factors : List.Forall₂ Factor parts cs) {items : List Item}
    (h : items ∈ parts) : ∃ c, Factor items c := by
  induction factors with
  | nil => simp at h
  | cons head _ ih =>
    rcases List.mem_cons.mp h with rfl | h
    · exact ⟨_, head⟩
    · exact ih h

theorem parts_ne_nil (factors : List.Forall₂ Factor parts cs) (two : 2 ≤ cs.length) :
    parts ≠ [] := by
  rintro rfl
  simp [← factors.length_eq] at two

/-- Two or more factors with `and` between them are their conjunction. -/
theorem disjunction?_joined_and (factors : List.Forall₂ Factor parts cs) (two : 2 ≤ cs.length) :
    disjunction? (joined .and parts) = some (.all cs) := by
  have no_and : ∀ items ∈ parts, ∀ i ∈ items, i.isWord .and = false := by
    intro items h
    obtain ⟨c, factor⟩ := exists_factor factors h
    exact factor.no_and
  have no_or : ∀ i ∈ joined .and parts, i.isWord .or = false := by
    intro i hi
    rcases mem_joined hi with rfl | ⟨items, h, hi⟩
    · rfl
    · obtain ⟨c, factor⟩ := exists_factor factors h
      exact factor.no_or i hi
  have read : parts.mapM factor? = some cs := mapM_of_forall₂ (factors.imp fun _ _ h => h.reads)
  have conjunction : conjunction? (joined .and parts) = some (.all cs) := by
    rw [conjunction?, splitOnP_joined (parts_ne_nil factors two) no_and, read]
    match cs, two with
    | _ :: _ :: _, _ => rfl
  simp [disjunction?, List.splitOnP_eq_singleton no_or, conjunction]

theorem disjunction?_joined_or (factors : List.Forall₂ Factor parts cs) (two : 2 ≤ cs.length) :
    disjunction? (joined .or parts) = some (.any cs) := by
  have no_or : ∀ items ∈ parts, ∀ i ∈ items, i.isWord .or = false := by
    intro items h
    obtain ⟨c, factor⟩ := exists_factor factors h
    exact factor.no_or
  have read : parts.mapM conjunction? = some cs :=
    mapM_of_forall₂ (factors.imp fun _ _ h => h.conjunction)
  rw [disjunction?, splitOnP_joined (parts_ne_nil factors two) no_or, read]
  match cs, two with
  | _ :: _ :: _, _ => rfl

theorem operands?_joined (word : Keyword) (factors : List.Forall₂ Factor parts cs) :
    operands? (joined word parts) = none := by
  cases factors with
  | nil => rfl
  | cons head tail =>
    cases tail with
    | nil => simpa [joined] using operands?_of_factor head []
    | cons next tail =>
      rw [joined, List.intercalate_cons_cons, List.append_assoc]
      exact operands?_of_factor head _

end Parts

/-! ### Printed parts -/

/-- The tokens are read as items that are one factor. -/
def Reads (tokens : List Token) (c : Condition) : Prop :=
  ∃ items, (∀ inner groups,
    tokens.foldlM step? (inner :: groups) = some ((inner ++ items) :: groups)) ∧ Factor items c

theorem Reads.group {tokens : List Token} {c : Condition} (h : Reads tokens c) :
    Reads (Token.opening :: tokens ++ [Token.closing]) c := by
  obtain ⟨items, run, factor⟩ := h
  refine ⟨[condition c], fun inner groups => ?_, factor_condition c⟩
  apply run_group (fun groups => run [] groups)
  have no_operands : operands? items = none := by simpa using operands?_of_factor factor []
  simp [close?, no_operands, factor.disjunction]

theorem Reads.not {tokens : List Token} {c : Condition} (h : Reads tokens c) :
    Reads (.keyword .not :: tokens) (.not c) := by
  obtain ⟨items, run, factor⟩ := h
  refine ⟨token (.keyword .not) :: items, fun inner groups => ?_, factor.not⟩
  have step : step? (inner :: groups) (.keyword .not) =
      some ((inner ++ [token (.keyword .not)]) :: groups) := rfl
  rw [List.foldlM_cons, step]
  simpa using run (inner ++ [token (.keyword .not)]) groups

theorem reads_plain {tokens : List Token} {c : Condition} (plain : tokens.all isPlain)
    (factor : Factor (tokens.map token) c) : Reads tokens c :=
  ⟨tokens.map token, fun inner groups => run_plain plain inner groups, factor⟩

/-- Printed parts with a word between them are read as factors with the word between them. -/
theorem run_joined (word : Keyword) {parts : List (List Token)} {cs : List Condition}
    (h : List.Forall₂ Reads parts cs) :
    ∃ itemss, List.Forall₂ Factor itemss cs ∧ ∀ inner groups,
      ([Token.keyword word].intercalate parts).foldlM step? (inner :: groups) =
        some ((inner ++ joined word itemss) :: groups) := by
  induction h with
  | nil => exact ⟨[], .nil, fun inner groups => by simp [joined]⟩
  | @cons tokens c parts cs head tail ih =>
    obtain ⟨items, run, factor⟩ := head
    obtain ⟨itemss, factors, runs⟩ := ih
    refine ⟨items :: itemss, .cons factor factors, fun inner groups => ?_⟩
    cases tail with
    | nil =>
      cases factors
      simpa [joined] using run inner groups
    | cons =>
      cases factors
      have step : ∀ inner, step? (inner :: groups) (.keyword word) =
          some ((inner ++ [token (.keyword word)]) :: groups) := fun _ => rfl
      rw [joined] at runs ⊢
      rw [List.intercalate_cons_cons, List.intercalate_cons_cons]
      simp [run, step, runs]

/-- Parts in parentheses with a word between them are read as what the factors with the word are. -/
theorem reads_joined {word : Keyword} {parts : List (List Token)} {cs : List Condition}
    {c : Condition} (h : List.Forall₂ Reads parts cs)
    (read : ∀ itemss, List.Forall₂ Factor itemss cs → disjunction? (joined word itemss) = some c) :
    Reads (Token.opening :: [Token.keyword word].intercalate parts ++ [Token.closing]) c := by
  obtain ⟨itemss, factors, run⟩ := run_joined word h
  refine ⟨[condition c], fun inner groups => ?_, factor_condition c⟩
  apply run_group (fun groups => run [] groups)
  simp [close?, operands?_joined word factors, read itemss factors]

theorem reads_all {parts : List (List Token)} {cs : List Condition}
    (h : List.Forall₂ Reads parts cs) (two : 2 ≤ cs.length) :
    Reads (Token.opening :: [Token.keyword .and].intercalate parts ++ [Token.closing]) (.all cs) :=
  reads_joined h fun _ factors => disjunction?_joined_and factors two

theorem reads_any {parts : List (List Token)} {cs : List Condition}
    (h : List.Forall₂ Reads parts cs) (two : 2 ≤ cs.length) :
    Reads (Token.opening :: [Token.keyword .or].intercalate parts ++ [Token.closing]) (.any cs) :=
  reads_joined h fun _ factors => disjunction?_joined_or factors two

/-! ### Tests -/

theorem reads_nullTest (name : String) (isNull : Bool) :
    Reads (Token.nullTest name isNull) (.null name isNull) := by
  cases isNull <;>
    exact reads_plain rfl ⟨rfl, by simp [Token.nullTest, isWord], by simp [Token.nullTest, isWord]⟩

theorem reads_comparison (name : String) (c : Comparison) (v : Value) :
    Reads [.column name, .comparison c, .param v] (.compare name c v) :=
  reads_plain rfl ⟨rfl, by simp [isWord], by simp [isWord]⟩

theorem reads_constant (value : Bool) :
    Reads [.keyword (if value then .true else .false)] (.constant value) := by
  cases value <;> exact reads_plain rfl ⟨rfl, by simp [isWord], by simp [isWord]⟩

theorem reads_member (name : String) (isIn : Bool) {group : List Token} {values : List Value}
    (run : ∀ inner groups, group.foldlM step? (inner :: groups) =
      some ((inner ++ [operands values]) :: groups)) :
    Reads (.column name :: (if isIn then [.keyword .in] else [.keyword .not, .keyword .in])
      ++ group) (.member name isIn values) := by
  have head : ∀ words : List Token, words.all isPlain → ∀ inner groups,
      (words ++ group).foldlM step? (inner :: groups) =
        some ((inner ++ (words.map token ++ [operands values])) :: groups) := by
    intro words plain inner groups
    rw [List.foldlM_append, run_plain plain]
    simp [run]
  cases isIn with
  | true =>
    exact ⟨_, head [.column name, .keyword .in] rfl, rfl, by simp [isWord], by simp [isWord]⟩
  | false =>
    exact ⟨_, head [.column name, .keyword .not, .keyword .in] rfl, rfl, by simp [isWord],
      by simp [isWord]⟩

/-- A choice with null among its values is read as the choice of the others and a test for null. -/
theorem reads_membership (name : String) (items : List Value) (isIn : Bool) :
    Reads (Token.membership name items isIn) (.membership name items isIn) := by
  unfold Token.membership Condition.membership
  simp only
  split
  · exact reads_nullTest name isIn
  · rename_i some_value
    rw [List.isEmpty_iff] at some_value
    have member := reads_member name isIn (run_paramList some_value)
    split
    · exact member
    · have parts := List.Forall₂.cons member (.cons (reads_nullTest name isIn) .nil)
      cases isIn with
      | true => simpa [List.intercalate_cons_cons] using reads_any parts (by simp)
      | false => simpa [List.intercalate_cons_cons] using reads_all parts (by simp)

theorem reads_ofTest (t : FieldTest) : Reads (Token.ofTest t) (.ofTest t) := by
  obtain ⟨name, test⟩ := t
  cases test with
  | equals v | differs v =>
    cases v with
    | null => exact reads_nullTest name _
    | _ => exact reads_comparison name _ _
  | oneOf items | noneOf items => exact reads_membership name items _
  | present expected => cases expected <;> exact reads_nullTest name _
  | above v | atLeast v | below v | atMost v => exact reads_comparison name _ v
  | unsupported operator whole => exact reads_constant false

end Item

/-! ### Clauses -/

namespace Clause

/-- Every connective of the clause has two parts or more. -/
inductive Grouped : Clause → Prop
  | constant (value : Bool) : Grouped (constant value)
  | all {parts : List Clause} : 2 ≤ parts.length → (∀ c ∈ parts, Grouped c) → Grouped (all parts)
  | any {parts : List Clause} : 2 ≤ parts.length → (∀ c ∈ parts, Grouped c) → Grouped (any parts)
  | not {part : Clause} : Grouped part → Grouped (not part)
  | atom (t : FieldTest) : Grouped (atom t)

theorem joined_eq_intercalate (word : Keyword) (parts : List Clause) :
    joined word parts = [Token.keyword word].intercalate (parts.map tokens) := by
  induction parts with
  | nil => rfl
  | cons c rest ih =>
    cases rest with
    | nil => simp [joined]
    | cons d rest =>
      rw [joined, ih, List.map_cons, List.map_cons, List.map_cons, List.intercalate_cons_cons,
        List.append_assoc, List.singleton_append]
      simp

def isConnective : Clause → Bool
  | all _ | any _ => true
  | _ => false

/-- A negated connective has its own parentheses, and any other negated clause is put into some. -/
theorem tokens_not (part : Clause) :
    (not part).tokens = .keyword .not ::
      if part.isConnective then part.tokens else .opening :: part.tokens ++ [.closing] := by
  cases part with
  | constant value => cases value <;> rfl
  | _ => simp [tokens, isConnective]

theorem forall₂_reads {parts : List Clause}
    (h : ∀ c ∈ parts, Item.Reads c.tokens c.condition) :
    List.Forall₂ Item.Reads (parts.map tokens) (conditions parts) := by
  rw [conditions_eq_map, List.forall₂_map_left_iff, List.forall₂_map_right_iff, List.forall₂_same]
  exact h

theorem reads_tokens {c : Clause} (grouped : c.Grouped) : Item.Reads c.tokens c.condition := by
  induction grouped with
  | constant value =>
    cases value
    · exact Item.reads_constant false
    · exact Item.reads_constant true
  | @all parts two _ ih =>
    rw [tokens, joined_eq_intercalate, condition]
    exact Item.reads_all (forall₂_reads ih) (by simpa [conditions_eq_map] using two)
  | @any parts two _ ih =>
    rw [tokens, joined_eq_intercalate, condition]
    exact Item.reads_any (forall₂_reads ih) (by simpa [conditions_eq_map] using two)
  | @not part _ ih =>
    rw [condition, tokens_not]
    split
    · exact ih.not
    · exact ih.group.not
  | atom t => exact Item.reads_ofTest t

theorem ofTokens?_tokens {c : Clause} (grouped : c.Grouped) :
    Condition.ofTokens? c.tokens = some c.condition := by
  obtain ⟨items, run, factor⟩ := reads_tokens grouped
  simp [Condition.ofTokens?, run, factor.disjunction]

end Clause

end Sql

end AccessRules

import AccessRules.Sql.Token

/-! The lexemes of a clause, read off its text. Words, comparison signs and placeholders are runs of
characters of one kind, and in a quoted identifier a quote is written twice. `scan?_write` reads
back what is written for any tokens: no name closes its quotes early, and no two tokens run
together. -/

namespace AccessRules

namespace Sql

/-- A lexeme of a clause; a parameter is only a placeholder, with its number if it has one. -/
inductive Lexeme where
  | keyword (k : Keyword)
  | comparison (c : Comparison)
  | opening
  | closing
  | comma
  | column (name : String)
  | placeholder (number : Option Nat)
  deriving DecidableEq

def Keyword.every : List Keyword := [.true, .false, .not, .and, .or, .is, .null, .in]

def Comparison.every : List Comparison :=
  [equal, unequal, greater, greaterEqual, less, lessEqual]

namespace Lexeme

/-! ### Scanning -/

def isSign (c : Char) : Bool := c == '=' || c == '<' || c == '>'

/-- Whether a run of characters starts with this one: a letter, a sign or the mark of a
placeholder. -/
def begins (c : Char) : Bool := c.isAlpha || isSign c || c == '$' || c == '?'

/-- Whether a run goes on: letters after a letter, signs after a sign, and digits after a mark. -/
def continues (first c : Char) : Bool :=
  if first.isAlpha then c.isAlpha else if isSign first then isSign c else c.isDigit

/-- The number that some digits denote; no digits are no number. -/
def number? (digits : List Char) : Option Nat :=
  if digits.isEmpty then none else some (Nat.ofDigitChars 10 digits 0)

def ofRun? : List Char → Option Lexeme
  | '$' :: digits => (number? digits).map fun n => placeholder (some n)
  | '?' :: digits => some (placeholder (number? digits))
  | run =>
    match Keyword.every.find? (·.text.toList == run) with
    | some k => some (keyword k)
    | none => (Comparison.every.find? (·.text.toList == run)).map comparison

/-- Where the scanner stands. -/
inductive Mode where
  | between
  /-- In a run, with its first character and the others so far. -/
  | run (first : Char) (others : List Char)
  /-- In a quoted identifier, with the characters of the name so far. -/
  | name (chars : List Char)
  /-- After a quote in an identifier, which ends it unless another quote follows. -/
  | quote (chars : List Char)

namespace Mode

def finish? : Mode → Option (List Lexeme)
  | between => some []
  | run first others => (ofRun? (first :: others)).map ([·])
  | name _ => none
  | quote chars => some [column (String.ofList chars)]

/-- A character between lexemes: the lexemes that it is, and the mode after it. -/
def start? (c : Char) : Option (List Lexeme × Mode) :=
  if c == ' ' then some ([], between)
  else if c == '(' then some ([opening], between)
  else if c == ')' then some ([closing], between)
  else if c == ',' then some ([comma], between)
  else if c == '"' then some ([], name [])
  else if begins c then some ([], run c [])
  else none

def restart? (m : Mode) (c : Char) : Option (List Lexeme × Mode) := do
  let done ← m.finish?
  let (more, next) ← start? c
  return (done ++ more, next)

def step? (m : Mode) (c : Char) : Option (List Lexeme × Mode) :=
  match m with
  | between => start? c
  | run first others =>
    if continues first c then some ([], run first (others ++ [c])) else m.restart? c
  | name chars => if c == '"' then some ([], quote chars) else some ([], name (chars ++ [c]))
  | quote chars => if c == '"' then some ([], name (chars ++ ['"'])) else m.restart? c

end Mode

/-- The lexemes of a text from a mode on; nothing when it is not a text of lexemes. -/
def scan? (m : Mode) : List Char → Option (List Lexeme)
  | [] => m.finish?
  | c :: rest => do
    let (done, next) ← m.step? c
    let others ← scan? next rest
    return done ++ others

end Lexeme

def Placeholder.number? (style : Placeholder) (number : Nat) : Option Nat :=
  match style with
  | dollar | questionNumbered => some number
  | question => none

namespace Token

/-- The lexeme of a token, where the next parameter has the given number. -/
def lexeme (style : Placeholder) (number : UInt64) : Token → Lexeme
  | keyword k => .keyword k
  | comparison c => .comparison c
  | opening => .opening
  | closing => .closing
  | comma => .comma
  | column name => .column name
  | param _ => .placeholder (style.number? number.toNat)

def lexemes (style : Placeholder) : UInt64 → List Token → List Lexeme
  | _, [] => []
  | number, t :: rest =>
    t.lexeme style number :: lexemes style (if t.value?.isSome then number + 1 else number) rest

end Token

/-! ### Reading back what is written -/

namespace Lexeme

/-- A text ends the lexeme before it when it is empty or starts with a blank, a closing parenthesis
or a comma. -/
def Ends (rest : List Char) : Prop := ∀ c ∈ rest.head?, c = ' ' ∨ c = ')' ∨ c = ','

theorem scan?_finish {m : Mode} {l : Lexeme} {rest : List Char} (finish : m.finish? = some [l])
    (restart : ∀ c ∈ rest.head?, m.step? c = m.restart? c) :
    scan? m rest = (scan? .between rest).map (l :: ·) := by
  cases rest with
  | nil => rw [scan?, scan?, finish]; rfl
  | cons c rest =>
    rw [scan?, restart c rfl, Mode.restart?, finish, scan?, Mode.step?]
    cases Mode.start? c with
    | none => rfl
    | some next => cases h : scan? next.2 rest <;> simp [h]

theorem scan?_run_append {first : Char} (others chars rest : List Char)
    (h : chars.all (continues first)) :
    scan? (.run first others) (chars ++ rest) = scan? (.run first (others ++ chars)) rest := by
  induction chars generalizing others with
  | nil => simp
  | cons c chars ih =>
    obtain ⟨hc, h⟩ := by simpa using h
    rw [List.cons_append, scan?, Mode.step?, if_pos hc]
    simpa using ih (others ++ [c]) (by simpa using h)

/-- What begins a run is none of the marks that are lexemes of their own. -/
theorem start?_of_begins {c : Char} (h : begins c) : Mode.start? c = some ([], .run c []) := by
  have ne : ∀ mark, begins mark = false → (c == mark) = false := by
    intro mark no
    rw [beq_eq_false_iff_ne]
    rintro rfl
    rw [no] at h
    contradiction
  simp [Mode.start?, ne ' ' rfl, ne '(' rfl, ne ')' rfl, ne ',' rfl, ne '"' rfl, h]

def isRun : List Char → Bool
  | [] => false
  | first :: others => begins first && others.all (continues first)

theorem continues_of_ends {rest : List Char} (first : Char) (ends : Ends rest) :
    ∀ c ∈ rest.head?, continues first c = false := by
  intro c hc
  unfold continues
  rcases ends c hc with rfl | rfl | rfl <;> split <;> first | rfl | (split <;> rfl)

/-- A run is read as one lexeme when the text after it ends it. -/
theorem scan?_run {chars rest : List Char} {l : Lexeme} (run : isRun chars)
    (lexeme : ofRun? chars = some l) (ends : Ends rest) :
    scan? .between (chars ++ rest) = (scan? .between rest).map (l :: ·) := by
  cases chars with
  | nil => contradiction
  | cons first others =>
    obtain ⟨hfirst, hothers⟩ := by simpa only [isRun, Bool.and_eq_true] using run
    have start : scan? .between (first :: (others ++ rest)) =
        scan? (.run first []) (others ++ rest) := by
      simp [scan?, Mode.step?, start?_of_begins hfirst]
    rw [List.cons_append, start, scan?_run_append [] others rest hothers]
    apply scan?_finish
    · simp [Mode.finish?, lexeme]
    · intro c hc
      simp [Mode.step?, continues_of_ends first ends c hc]

theorem scan?_name (chars name rest : List Char) :
    scan? (.name chars) (doubled name ++ '"' :: rest) = scan? (.quote (chars ++ name)) rest := by
  induction name generalizing chars with
  | nil => simp [doubled, scan?, Mode.step?]
  | cons c name ih =>
    unfold doubled
    split
    · rename_i hc
      subst hc
      simpa [scan?, Mode.step?] using ih (chars ++ ['"'])
    · rename_i hc
      simpa [scan?, Mode.step?, hc] using ih (chars ++ [c])

theorem head?_ne_quote_of_ends {rest : List Char} (ends : Ends rest) : rest.head? ≠ some '"' := by
  intro head
  rcases ends '"' head with eq | eq | eq <;> contradiction

theorem scan?_identifier (name : String) {rest : List Char} (apart : rest.head? ≠ some '"') :
    scan? .between ((identifier name).toList ++ rest) =
      (scan? .between rest).map (column name :: ·) := by
  have start : scan? .between ((identifier name).toList ++ rest) =
      scan? (.name []) (doubled name.toList ++ '"' :: rest) := by
    simp [identifier, scan?, Mode.step?, Mode.start?]
  rw [start, scan?_name]
  apply scan?_finish
  · simp [Mode.finish?]
  · intro c hc
    have plain : c ≠ '"' := by
      rintro rfl
      exact apart hc
    simp [Mode.step?, plain]

theorem scan?_keyword (k : Keyword) {rest : List Char} (ends : Ends rest) :
    scan? .between (k.text.toList ++ rest) = (scan? .between rest).map (keyword k :: ·) :=
  scan?_run (by cases k <;> decide) (by cases k <;> decide) ends

theorem scan?_comparison (c : Comparison) {rest : List Char} (ends : Ends rest) :
    scan? .between (c.text.toList ++ rest) = (scan? .between rest).map (comparison c :: ·) :=
  scan?_run (by cases c <;> decide) (by cases c <;> decide) ends

theorem number?_toDigits (number : Nat) : number? (Nat.toDigits 10 number) = some number := by
  rw [number?, if_neg (by simp [Nat.toDigits_ne_nil]),
    Nat.ofDigitChars_toDigits (by decide) (by decide)]

theorem isDigit_toDigits (number : Nat) : (Nat.toDigits 10 number).all Char.isDigit := by
  rw [List.all_eq_true]
  intro c hc
  exact Nat.isDigit_of_mem_toDigits (by decide) (by decide) hc

theorem scan?_placeholder (style : Placeholder) (number : UInt64) {rest : List Char}
    (ends : Ends rest) :
    scan? .between (style.chars number ++ rest) =
      (scan? .between rest).map (placeholder (style.number? number.toNat) :: ·) := by
  apply scan?_run _ _ ends
  · cases style with
    | dollar | questionNumbered => exact isDigit_toDigits number.toNat
    | question => rfl
  · cases style with
    | dollar | questionNumbered =>
      simp [Placeholder.chars, ofRun?, number?_toDigits, Placeholder.number?]
    | question => rfl

/-- Every token is read back, if the text after it ends it or the token ends itself. -/
theorem scan?_token (style : Placeholder) (number : UInt64) (t : Token) {rest : List Char}
    (ends : t = .opening ∨ Ends rest) :
    scan? .between (t.chars style number ++ rest) =
      (scan? .between rest).map (t.lexeme style number :: ·) := by
  have mark : ∀ c l, Mode.start? c = some ([l], .between) →
      scan? .between (c :: rest) = (scan? .between rest).map (l :: ·) := by
    intro c l start
    rw [scan?, Mode.step?, start]
    cases h : scan? .between rest <;> simp [h]
  cases t with
  | opening => exact mark '(' .opening rfl
  | closing => exact mark ')' .closing rfl
  | comma => exact mark ',' .comma rfl
  | keyword k => exact scan?_keyword k (ends.resolve_left nofun)
  | comparison c => exact scan?_comparison c (ends.resolve_left nofun)
  | column name => exact scan?_identifier name (head?_ne_quote_of_ends (ends.resolve_left nofun))
  | param v => exact scan?_placeholder style number (ends.resolve_left nofun)

/-- The text of a token that no blank precedes starts with a mark that ends the lexeme before. -/
theorem ends_of_not_spaced {t u : Token} (h : Token.spaced t u = false) (style : Placeholder)
    (number : UInt64) (rest : List Char) :
    t = .opening ∨ Ends (u.chars style number ++ rest) := by
  cases u with
  | closing => exact .inr (by simp [Ends, Token.chars])
  | comma => exact .inr (by simp [Ends, Token.chars])
  | _ => cases t <;> first | exact .inl rfl | simp [Token.spaced] at h

theorem write_cons (t : Token) (rest : List Token) :
    ∃ gap, ∀ style number, Token.write style number (t :: rest) =
      t.chars style number ++
        (gap ++ Token.write style (if t.value?.isSome then number + 1 else number) rest) := by
  cases rest with
  | nil => exact ⟨[], fun style number => by simp [Token.write]⟩
  | cons u rest =>
    refine ⟨if Token.spaced t u then [' '] else [], fun style number => ?_⟩
    rw [Token.write, List.append_assoc]

theorem scan?_blank (rest : List Char) : scan? .between (' ' :: rest) = scan? .between rest := by
  rw [scan?, Mode.step?]
  cases h : scan? .between rest <;> simp [Mode.start?, h]

theorem scan?_write (style : Placeholder) (number : UInt64) (tokens : List Token) :
    scan? .between (Token.write style number tokens) =
      some (Token.lexemes style number tokens) := by
  induction tokens generalizing number with
  | nil => rfl
  | cons t rest ih =>
    cases rest with
    | nil =>
      have ends : Ends [] := by simp [Ends]
      simpa [Token.write, Token.lexemes, scan?, Mode.finish?] using
        scan?_token style number t (.inr ends)
    | cons u rest =>
      rw [Token.write, Token.lexemes, List.append_assoc]
      cases spaced : Token.spaced t u with
      | true =>
        rw [scan?_token style number t (.inr (by simp [Ends])), if_pos rfl, List.cons_append,
          List.nil_append, scan?_blank, ih]
        rfl
      | false =>
        obtain ⟨gap, split⟩ := write_cons u rest
        have ends : ∀ next, t = .opening ∨ Ends (Token.write style next (u :: rest)) := by
          intro next
          rw [split]
          exact ends_of_not_spaced spaced style next _
        rw [if_neg (by simp), List.nil_append, scan?_token style number t (ends _), ih]
        rfl

end Lexeme

end Sql

end AccessRules

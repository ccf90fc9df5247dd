import AccessRules.Proofs.Sql.Lexeme
import AccessRules.Sql.Fragment

/-! Identifiers read back. An identifier is taken off the front of a text up to the quote that no
other follows, which undoes the quoting of a name: `takeIdentifier?_eq_some_iff` says that exactly
the identifiers are read, each as its name. Whatever quotes a name holds, they are read in pairs and
close nothing, so the field of each column of a clause is read at its place and no further. -/

namespace AccessRules

namespace Sql

/-! ### Reading -/

/-- Takes a name whose quotes are open off the front of a text. Two quotes stand for one, and a
quote that no other follows closes the name. -/
def takeName? : List Char → Option (List Char × List Char)
  | [] => none
  | '"' :: '"' :: rest => (takeName? rest).map fun (name, left) => ('"' :: name, left)
  | '"' :: rest => some ([], rest)
  | c :: rest => (takeName? rest).map fun (name, left) => (c :: name, left)

/-- Takes an identifier off the front of a text: its name, and what is left of the text. -/
def takeIdentifier? (text : String) : Option (String × String) :=
  match text.toList with
  | '"' :: rest =>
    (takeName? rest).map fun (name, left) => (String.ofList name, String.ofList left)
  | _ => none

theorem takeName?_cons {c : Char} (plain : c ≠ '"') (rest : List Char) :
    takeName? (c :: rest) = (takeName? rest).map fun (name, left) => (c :: name, left) := by
  simp [takeName?, plain]

theorem takeName?_closing {rest : List Char} (apart : rest.head? ≠ some '"') :
    takeName? ('"' :: rest) = some ([], rest) := by
  cases rest with
  | nil => rfl
  | cons c rest =>
    have plain : c ≠ '"' := by simpa using apart
    simp [takeName?, plain]

/-! ### Names -/

theorem doubled_cons {c : Char} (plain : c ≠ '"') (name : List Char) :
    doubled (c :: name) = c :: doubled name := by
  rw [doubled, if_neg plain]

/-- Past the quotes of a name, read in pairs, the name is still open, whatever follows. -/
theorem takeName?_doubled (name rest : List Char) :
    takeName? (doubled name ++ rest) =
      (takeName? rest).map fun (more, left) => (name ++ more, left) := by
  induction name with
  | nil => simp [doubled]
  | cons c name ih =>
    by_cases quote : c = '"'
    · subst quote
      rw [doubled, if_pos rfl, List.cons_append, List.cons_append, takeName?, ih, Option.map_map]
      rfl
    · rw [doubled_cons quote, List.cons_append, takeName?_cons quote, ih, Option.map_map]
      rfl

theorem eq_of_takeName? {text name left : List Char} (read : takeName? text = some (name, left)) :
    text = doubled name ++ '"' :: left ∧ left.head? ≠ some '"' := by
  fun_induction takeName? text generalizing name left with
  | case1 => contradiction
  | case2 rest ih =>
    obtain ⟨⟨more, left⟩, inner, pair⟩ := Option.map_eq_some_iff.mp read
    obtain ⟨rfl, rfl⟩ := Prod.mk.inj pair
    obtain ⟨rfl, apart⟩ := ih inner
    exact ⟨rfl, apart⟩
  | case3 rest single =>
    obtain ⟨rfl, rfl⟩ := Prod.mk.inj (Option.some.inj read)
    refine ⟨rfl, fun head => ?_⟩
    obtain ⟨tail, rfl⟩ := List.head?_eq_some_iff.mp head
    exact single tail rfl
  | case4 c rest _ plain ih =>
    obtain ⟨⟨more, left⟩, inner, pair⟩ := Option.map_eq_some_iff.mp read
    obtain ⟨rfl, rfl⟩ := Prod.mk.inj pair
    obtain ⟨rfl, apart⟩ := ih inner
    exact ⟨by rw [doubled_cons plain, List.cons_append], apart⟩

theorem takeName?_eq_some_iff {text name left : List Char} :
    takeName? text = some (name, left) ↔
      text = doubled name ++ '"' :: left ∧ left.head? ≠ some '"' := by
  refine ⟨eq_of_takeName?, ?_⟩
  rintro ⟨rfl, apart⟩
  simp [takeName?_doubled, takeName?_closing apart]

/-- What is left after a name was closed is left of what follows the first quote. -/
theorem suffix_of_takeName? {rest name left : List Char}
    (read : takeName? ('"' :: rest) = some (name, left)) : left <:+ rest := by
  have closing : '"' :: left <:+ '"' :: rest := by
    rw [(eq_of_takeName? read).1]
    exact List.suffix_append _ _
  rcases List.suffix_cons_iff.mp closing with eq | suffix
  · obtain ⟨-, rfl⟩ := List.cons.inj eq
    exact List.suffix_rfl
  · exact (List.suffix_cons _ _).trans suffix

/-! ### Identifiers -/

theorem takeIdentifier?_append (name rest : String) :
    takeIdentifier? (identifier name ++ rest) =
      (takeName? (doubled name.toList ++ '"' :: rest.toList)).map
        fun (name, left) => (String.ofList name, String.ofList left) := by
  simp [takeIdentifier?, identifier]

/-- An identifier is read as its name if no quote follows it, and no other text is read. -/
theorem takeIdentifier?_eq_some_iff {text name rest : String} :
    takeIdentifier? text = some (name, rest) ↔
      text = identifier name ++ rest ∧ rest.toList.head? ≠ some '"' := by
  constructor
  · intro read
    unfold takeIdentifier? at read
    split at read
    case h_1 chars opened =>
      obtain ⟨⟨inner, left⟩, taken, pair⟩ := Option.map_eq_some_iff.mp read
      obtain ⟨rfl, rfl⟩ := Prod.mk.inj pair
      obtain ⟨rfl, apart⟩ := takeName?_eq_some_iff.mp taken
      refine ⟨String.toList_inj.mp ?_, by simpa using apart⟩
      simp [opened, identifier]
    case h_2 => contradiction
  · rintro ⟨rfl, apart⟩
    rw [takeIdentifier?_append, takeName?_eq_some_iff.mpr ⟨rfl, apart⟩]
    simp

theorem identifier_injective : Function.Injective identifier := by
  intro a b same
  have read : ∀ name, takeIdentifier? (identifier name ++ "") = some (name, "") := fun name =>
    takeIdentifier?_eq_some_iff.mpr ⟨rfl, by simp⟩
  have both : some (a, "") = some (b, "") := by rw [← read a, same, read b]
  exact (Prod.mk.inj (Option.some.inj both)).1

/-- Without its last quote an identifier is not closed. -/
theorem takeIdentifier?_dropLast (name : String) :
    takeIdentifier? (String.ofList (identifier name).toList.dropLast) = none := by
  have opened : (identifier name).toList.dropLast = '"' :: doubled name.toList := by
    rw [identifier, String.toList_ofList, List.dropLast_concat]
  have unclosed : takeName? (doubled name.toList) = none := by
    simpa [takeName?] using takeName?_doubled name.toList []
  rw [takeIdentifier?, String.toList_ofList, opened]
  simp only [unclosed, Option.map_none]

/-- Whatever follows an identifier, all of the name is read before the quotes close. -/
theorem kept_of_takeIdentifier? {name rest read left : String}
    (taken : takeIdentifier? (identifier name ++ rest) = some (read, left)) :
    name.toList <+: read.toList ∧ left.toList <:+ rest.toList := by
  rw [takeIdentifier?_append, takeName?_doubled] at taken
  obtain ⟨⟨whole, after⟩, inner, texts⟩ := Option.map_eq_some_iff.mp taken
  obtain ⟨⟨more, after⟩, closing, pair⟩ := Option.map_eq_some_iff.mp inner
  obtain ⟨rfl, rfl⟩ := Prod.mk.inj pair
  obtain ⟨rfl, rfl⟩ := Prod.mk.inj texts
  simpa using suffix_of_takeName? closing

/-- From the front of an identifier and a text that does not begin with a quote, exactly the name is
read and exactly that text is left. So different names have different identifiers, and no name
closes its quotes: they are open up to the last quote of the identifier, and whatever text comes
next, even one that begins with a quote, all of the name is read and nothing of the identifier is
left. -/
theorem identifier_read_back :
    (∀ name rest : String, rest.toList.head? ≠ some '"' →
      takeIdentifier? (identifier name ++ rest) = some (name, rest)) ∧
    Function.Injective identifier ∧
    ∀ name : String,
      takeIdentifier? (String.ofList (identifier name).toList.dropLast) = none ∧
      ∀ rest read left : String,
        takeIdentifier? (identifier name ++ rest) = some (read, left) →
          name.toList <+: read.toList ∧ left.toList <:+ rest.toList := by
  refine ⟨fun name rest apart => ?_, identifier_injective, fun name => ?_⟩
  · exact takeIdentifier?_eq_some_iff.mpr ⟨rfl, apart⟩
  · exact ⟨takeIdentifier?_dropLast name, fun rest read left => kept_of_takeIdentifier?⟩

/-- A name that begins and ends with quotes and holds a clause is read back as it is, and a quote
after its identifier makes the name longer. -/
theorem identifier_read_back_quotes :
    (" = $1".toList.head? ≠ some '"' ∧
      takeIdentifier? (identifier "\"\" or \"1\" = \"1\"" ++ " = $1") =
        some ("\"\" or \"1\" = \"1\"", " = $1")) ∧
    takeIdentifier? (identifier "id\"" ++ "\" or 1\" = 1") = some ("id\"\" or 1", " = 1") ∧
      "id\"".toList <+: "id\"\" or 1".toList ∧ " = 1".toList <:+ "\" or 1\" = 1".toList :=
  ⟨⟨by decide, identifier_read_back.1 _ _ (by decide)⟩,
    by decide, (identifier_read_back.2.2 "id\"").2 _ _ _ (by decide)⟩

/-! ### Columns -/

/-- The scanner of clauses takes an identifier as a column of its name. -/
theorem scan?_of_takeIdentifier? {text name rest : String}
    (read : takeIdentifier? text = some (name, rest)) :
    Lexeme.scan? .between text.toList =
      (Lexeme.scan? .between rest.toList).map (.column name :: ·) := by
  obtain ⟨rfl, apart⟩ := takeIdentifier?_eq_some_iff.mp read
  rw [String.toList_append]
  exact Lexeme.scan?_identifier name apart

namespace Token

/-- Tokens before a token are written as they are alone, with a blank after them or nothing, and
only the numbers of the parameters after them depend on them. -/
theorem write_append (style : Placeholder) (number : UInt64) (before : List Token) (u : Token)
    (after : List Token) :
    ∃ gap next, (gap = [] ∨ gap = [' ']) ∧
      write style number (before ++ u :: after) =
        write style number before ++ (gap ++ write style next (u :: after)) := by
  induction before generalizing number with
  | nil => exact ⟨[], number, .inl rfl, rfl⟩
  | cons t before ih =>
    cases before with
    | nil =>
      refine ⟨if spaced t u then [' '] else [], _, ?_,
        by rw [List.singleton_append, write, write, List.append_assoc]⟩
      split
      · exact .inr rfl
      · exact .inl rfl
    | cons v before =>
      obtain ⟨gap, next, blank, split⟩ := ih (if t.value?.isSome then number + 1 else number)
      refine ⟨gap, next, blank, ?_⟩
      simp only [List.cons_append, write, List.append_assoc] at split ⊢
      rw [split]

/-- The text after a column ends its identifier. -/
theorem write_column (style : Placeholder) (number : UInt64) (name : String) (after : List Token) :
    ∃ rest, Lexeme.Ends rest ∧
      write style number (column name :: after) = (identifier name).toList ++ rest := by
  cases after with
  | nil => exact ⟨[], by simp [Lexeme.Ends], by simp [write, chars]⟩
  | cons u after =>
    rw [write, chars, List.append_assoc]
    refine ⟨_, ?_, rfl⟩
    cases apart : spaced (column name) u with
    | true => simp [Lexeme.Ends]
    | false =>
      obtain ⟨gap, split⟩ := Lexeme.write_cons u after
      rw [if_neg (by simp), List.nil_append, split]
      exact (Lexeme.ends_of_not_spaced apart style _ _).resolve_left (by simp)

end Token

/-- At the place of each column in the clause of a formula its field is read, and what is written
after the column is left. -/
theorem Fragment.takeIdentifier?_column (options : Options) {f : Formula} {field : String}
    {before after : List Token}
    (tokens : (lower false f).clause.tokens = before ++ .column field :: after) :
    ∃ gap rest : String, (gap = "" ∨ gap = " ") ∧
      (ofFormula options f).clause =
        String.ofList (Token.write options.style (options.offset + 1) before) ++ gap ++
          (identifier field ++ rest) ∧
      takeIdentifier? (identifier field ++ rest) = some (field, rest) := by
  obtain ⟨gap, next, blank, split⟩ :=
    Token.write_append options.style (options.offset + 1) before (.column field) after
  obtain ⟨rest, ends, column⟩ := Token.write_column options.style next field after
  refine ⟨String.ofList gap, String.ofList rest, ?_, ?_, ?_⟩
  · rcases blank with rfl | rfl
    · exact .inl rfl
    · exact .inr rfl
  · apply String.toList_inj.mp
    simp [ofFormula, tokens, split, column]
  · rw [takeIdentifier?_eq_some_iff, String.toList_ofList]
    exact ⟨rfl, Lexeme.head?_ne_quote_of_ends ends⟩

example :
    takeIdentifier? (Fragment.ofFormula {} (.field ⟨"id\" = 1 or \"", .equals .null⟩)).clause =
      some ("id\" = 1 or \"", " is null") := by
  decide

end Sql

end AccessRules

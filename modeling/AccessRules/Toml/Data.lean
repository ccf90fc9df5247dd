/-! The data of a TOML document. A table remembers how it came to be, for that decides which later
lines may add to it. -/

namespace AccessRules

namespace Toml

/-- How a table came to be. -/
inductive Origin where
  /-- Named by a header. -/
  | header
  /-- On the way to a table that a header names. -/
  | implied
  /-- On the way to a key with dots. -/
  | dotted
  /-- Written out as a value. -/
  | inline
  deriving DecidableEq

/-- An item of data. Numbers and times count only as such. -/
inductive Item where
  | text (s : String)
  | bool (b : Bool)
  | integer
  | float
  | time
  | list (items : List Item)
  | table (origin : Origin) (entries : List (String × Item))
  /-- A list of tables, of which each has a header; the last one comes first. -/
  | tables (elements : List (List (String × Item)))

/-- The entries of a table. -/
abbrev Entries := List (String × Item)

namespace Entries

/-- An entry takes the place of the one with its key, or the last place. -/
def set : Entries → String → Item → Entries
  | [], key, item => [(key, item)]
  | (k, i) :: rest, key, item => if k == key then (k, item) :: rest else (k, i) :: set rest key item

/-- Adds an entry whose key is not taken. -/
def add? (entries : Entries) (key : String) (item : Item) : Option Entries :=
  if (entries.lookup key).isSome then none else some (entries ++ [(key, item)])

/-- Changes the table at the end of a path, which starts from a table of the given origin. Tables
that are missing on the way come into being with the origin `made`. A path with dots passes no table
that has a header, and no path passes one that is a value. -/
def alter? (made : Origin) (change : Origin → Entries → Option Entries) :
    List String → Origin → Entries → Option Entries
  | [], origin, entries => change origin entries
  | key :: path, _, entries =>
    match entries.lookup key with
    | none => do
      let inner ← alter? made change path made []
      return entries.set key (.table made inner)
    | some (.table .inline _) => none
    | some (.table .header inner) =>
      if made = .dotted then none
      else do
        let inner ← alter? made change path .header inner
        return entries.set key (.table .header inner)
    | some (.table origin inner) => do
      let inner ← alter? made change path origin inner
      return entries.set key (.table origin inner)
    | some (.tables (last :: earlier)) => do
      let last ← alter? made change path .header last
      return entries.set key (.tables (last :: earlier))
    | some _ => none

/-- Adds an entry under a key with dots: the table that it goes to must have come into being with
dots as well, unless the key has none. -/
def assign? (path : List String) (key : String) (item : Item) (origin : Origin)
    (entries : Entries) : Option Entries :=
  alter? .dotted
    (fun reached inner =>
      if reached = .dotted ↔ path.isEmpty then none else inner.add? key item)
    path origin entries

/-- Adds the table that a header names, or makes an implied one its own. -/
def header? (path : List String) (key : String) (entries : Entries) : Option Entries :=
  alter? .implied
    (fun _ inner =>
      match inner.lookup key with
      | none => some (inner.set key (.table .header []))
      | some (.table .implied children) => some (inner.set key (.table .header children))
      | some _ => none)
    path .header entries

/-- Adds one more table to the list of tables that a header names. -/
def element? (path : List String) (key : String) (entries : Entries) : Option Entries :=
  alter? .implied
    (fun _ inner =>
      match inner.lookup key with
      | none => some (inner.set key (.tables [[]]))
      | some (.tables elements) => some (inner.set key (.tables ([] :: elements)))
      | some _ => none)
    path .header entries

end Entries

end Toml

end AccessRules

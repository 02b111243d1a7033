/-!
# Tables

The tables of a configuration file are put together from statements. A statement names a place by a
path of keys, and the tables on the way come into being as needed; how a table came into being
decides what may be added to it later:

* a table written out between braces is closed;
* one with a header of its own cannot have a second header, and keys with dots do not reach into it
  from elsewhere;
* one that exists only because the header of another table passes through it may still get a header;
* one that exists only because a key with dots passes through it may get more such keys, but no
  header.
-/

namespace SpoolTag.Toml

/-- How a table came into being. -/
inductive Origin where
  /-- It is written out between braces. -/
  | braces
  /-- It has a header. -/
  | header
  /-- The header of another table passes through it. -/
  | passed
  /-- A key with dots passes through it. -/
  | dotted
  deriving DecidableEq, Repr

/-- What stands under a key. -/
inductive Item where
  | text (s : String)
  | integer (i : Int)
  | flag (b : Bool)
  | float
  | moment
  | array (items : List Item)
  | table (origin : Origin) (entries : List (String × Item))
  /-- Tables with a repeated header, in order. -/
  | tables (all : List (List (String × Item)))

/-- The entries of a table, each key once. -/
abbrev Entries := List (String × Item)

namespace Entries

def item? (key : String) (entries : Entries) : Option Item :=
  (List.find? (fun entry => entry.1 == key) entries).map (·.2)

/-- Puts an item under a key, in place of what stood there. -/
def put (key : String) (item : Item) (entries : Entries) : Entries :=
  if entries.any (·.1 == key) then
    entries.map fun entry => if entry.1 == key then (key, item) else entry
  else entries ++ [(key, item)]

/-- Changes the table at the end of a path, if it can be reached. Tables on the way that do not exist
come into being; of repeated tables the last one is meant. The keys of the path stand either in a
header or in a key with dots. -/
def changeAt (inKey : Bool) (change : Origin → Entries → Option Entries) :
    List String → Origin → Entries → Option Entries
  | [], origin, entries => change origin entries
  | key :: rest, _, entries =>
    match entries.item? key with
    | none => do
      let origin : Origin := if inKey then .dotted else .passed
      let inner ← changeAt inKey change rest origin []
      pure (entries.put key (.table origin inner))
    | some (.table origin inner) =>
      if origin = .braces ∨ (inKey ∧ origin = .header) then none
      else do
        let inner ← changeAt inKey change rest origin inner
        pure (entries.put key (.table origin inner))
    | some (.tables all) => do
      let inner ← changeAt inKey change rest .header (all.getLastD [])
      pure (entries.put key (.tables (all.dropLast ++ [inner])))
    | some _ => none

/-- Gives a table a header, under the last key of its path. -/
def openTable (key : String) (_ : Origin) (entries : Entries) : Option Entries :=
  match entries.item? key with
  | none => some (entries.put key (.table .header []))
  | some (.table .passed inner) => some (entries.put key (.table .header inner))
  | some _ => none

/-- Begins another table under a repeated header, under the last key of its path. -/
def openRepeated (key : String) (_ : Origin) (entries : Entries) : Option Entries :=
  match entries.item? key with
  | none => some (entries.put key (.tables [[]]))
  | some (.tables all) => some (entries.put key (.tables (all ++ [[]])))
  | some _ => none

/-- Puts an item under a key that is still free, the last one of a key with dots or of one
without. -/
def define (dots : Bool) (key : String) (item : Item) (origin : Origin) (entries : Entries) :
    Option Entries :=
  if dots ≠ (origin = .dotted) ∨ (entries.item? key).isSome then none
  else some (entries.put key item)

/-- Puts an item under a key with or without dots. -/
def assign (keys : List String) (key : String) (item : Item) (origin : Origin)
    (entries : Entries) : Option Entries :=
  changeAt true (define (!keys.isEmpty) key item) keys origin entries

end Entries

/-! ### Statements -/

/-- A statement of a configuration file; a path is given by its last key and those before it. -/
inductive Statement where
  | table (keys : List String) (key : String)
  | repeated (keys : List String) (key : String)
  | assign (keys : List String) (key : String) (item : Item)

namespace Statement

/-- Carries out statements one after the other, the table at a path being the current one. -/
def build (current : List String) (root : Entries) : List Statement → Option Entries
  | [] => some root
  | .table keys key :: rest => do
    let root ← Entries.changeAt false (Entries.openTable key) keys .header root
    build (keys ++ [key]) root rest
  | .repeated keys key :: rest => do
    let root ← Entries.changeAt false (Entries.openRepeated key) keys .header root
    build (keys ++ [key]) root rest
  | .assign keys key item :: rest => do
    let root ← Entries.changeAt false (Entries.assign keys key item) current .header root
    build current root rest

end Statement

end SpoolTag.Toml

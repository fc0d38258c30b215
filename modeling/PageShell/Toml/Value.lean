import PageShell.Shape

/-!
# TOML values

A TOML document is a table, and so are many of its parts. How a table came about
decides what may be added to it later, so a table remembers it: an inline table
is closed, a table with a header of its own can be opened once, one that only a
longer header has mentioned is still open for its own header, and one that
dotted keys have made takes more dotted keys. The entries are in the order in
which the document mentions them.
-/

namespace PageShell

namespace Toml

/-- How a table came about. -/
inductive Origin where
  /-- Written between braces. -/
  | inline
  /-- Opened by its own header, or the document itself. -/
  | header
  /-- Mentioned by the header of a table inside it. -/
  | mentioned
  /-- Made by dotted keys. -/
  | dotted
deriving DecidableEq

/-- A table that is not written out may still be gone into by dotted keys. -/
def Origin.isImplicit : Origin → Bool
  | .inline | .header => false
  | .mentioned | .dotted => true

end Toml

inductive Toml where
  | string (value : String)
  | integer (value : Int)
  | float (value : Number)
  | boolean (value : Bool)
  /-- A date, a time, or both. -/
  | dateTime
  | array (items : List Toml)
  | table (origin : Toml.Origin) (entries : List (String × Toml))
  /-- An array of tables, one for each header in double brackets. -/
  | tables (items : List (List (String × Toml)))

namespace Toml

/-- The value as it is named in a complaint. -/
def found : Toml → Found
  | .string value => .text value
  | .integer value => .integer value
  | .float value => .real Number.configured value
  | .boolean value => .boolean value
  | .array _ | .tables _ => .sequence
  | .dateTime | .table .. => .map

/-- A table under construction: how it came about, and its entries so far. -/
structure Table where
  origin : Origin
  entries : List (String × Toml) := []

namespace Table

def get? (t : Table) (key : String) : Option Toml := t.entries.lookup key

def push (t : Table) (key : String) (value : Toml) : Table :=
  { t with entries := t.entries ++ [(key, value)] }

def erase (t : Table) (key : String) : Table :=
  { t with entries := t.entries.filter (·.1 ≠ key) }

/-- Changes the value of an entry where it stands. -/
def replace (t : Table) (key : String) (value : Toml) : Table :=
  { t with
    entries := t.entries.map fun e => if e.1 = key then (key, value) else e }

def toValue (t : Table) : Toml := .table t.origin t.entries

/-- Visits the table at the end of a path and changes it, making the tables on
the way that are not there yet. A path of dotted keys goes through tables that
are not written out; a path of a header goes through all that have no braces.
Both go into the last of an array of tables. -/
def visit {α : Type} (isDotted : Bool) (change : Table → Option (α × Table)) :
    List String → Table → Option (α × Table)
  | [], t => change t
  | key :: path, t =>
    match t.get? key with
    | none => do
      let (a, inner) ← visit isDotted change path
        { origin := if isDotted then .dotted else .mentioned }
      some (a, t.push key inner.toValue)
    | some (.table origin entries) =>
      if origin = .inline ∨ (isDotted ∧ !origin.isImplicit) then none
      else do
        let (a, inner) ← visit isDotted change path { origin, entries }
        some (a, t.replace key inner.toValue)
    | some (.tables items) =>
      match items.getLast? with
      | none => none
      | some entries => do
        let (a, inner) ←
          visit isDotted change path { origin := .header, entries }
        some (a, t.replace key (.tables (items.dropLast ++ [inner.entries])))
    | some _ => none

/-- Changes the table at the end of a path. -/
def modify (isDotted : Bool) (change : Table → Option Table)
    (path : List String) (t : Table) : Option Table :=
  (t.visit isDotted (fun inner => (change inner).map ((), ·)) path).map (·.2)

/-- Adds a value under a dotted key whose last part is `key`. Dotted keys may
not add to a table that is not made by dotted keys, and no key may be there
already. -/
def define (t : Table) (path : List String) (key : String) (value : Toml) :
    Option Table :=
  t.modify true (fun inner =>
    if inner.origin = .dotted ↔ path = [] then none
    else if (inner.get? key).isSome then none
    else some (inner.push key value)) path

end Table

end Toml

end PageShell

/-
# TOML tables in the making

The entries of a TOML document come in pieces: a header opens a table, and a key with dots
reaches into tables inside it.  An `Outline` remembers how each table came to be, because that
settles what may still be added.

* A table is `defined` by a header of its own, once.
* It is `implied` when only a header of a table inside it was met; its own header may follow.
* It is `dotted` when the keys of another table reach into it; no header may define it.

Keys with dots only reach into tables that are not defined, and a table between braces is a
value, to which nothing is added.
-/
import EntityLayout.Toml.Basic

namespace EntityLayout.Toml

/-- How a table came to be. -/
inductive Origin where
  | defined
  | implied
  | dotted
  deriving DecidableEq, Repr

/-- What stands under a key. -/
inductive Outline where
  | value (v : Toml)
  | table (origin : Origin) (entries : List (String × Outline))
  /-- tables under headers with double brackets; only the last one is still open -/
  | tables (earlier : List (List (String × Outline))) (last : List (String × Outline))
  deriving Repr

/-- The entries of a table in the making. -/
abbrev Entries := List (String × Outline)

/-- A change to a table: its origin and entries afterwards, unless it is not allowed. -/
abbrev TableChange := Origin → Entries → Option (Origin × Entries)

namespace Entries

/-! ## 1. Changing a table inside others -/

/-- Puts something else under a key. -/
def replace (key : String) (o : Outline) (es : Entries) : Entries :=
  es.map fun e => if e.1 = key then (key, o) else e

/-- Makes a change to the table at a path.  Tables on the path that are not there yet are made:
`dotted` ones on the way of a key, which must not pass defined ones, and implied ones on the
way of a header. -/
def changeAt (dotted : Bool) : List String → TableChange → TableChange
  | [], change, origin, es => change origin es
  | key :: path, change, origin, es =>
    match es.lookup key with
    | none => do
      let (made, inner) ← changeAt dotted path change (if dotted then .dotted else .implied) []
      pure (origin, es ++ [(key, .table made inner)])
    | some (.value _) => none
    | some (.table o inner) =>
      if dotted && decide (o = .defined) then none
      else do
        let (o, inner) ← changeAt dotted path change o inner
        pure (origin, replace key (.table o inner) es)
    | some (.tables earlier last) => do
      let (_, last) ← changeAt dotted path change .defined last
      pure (origin, replace key (.tables earlier last) es)

/-! ## 2. Keys and headers -/

/-- Adds a value under a key that is new. -/
def addKey (key : String) (v : Toml) : TableChange := fun origin es =>
  if (es.lookup key).isSome then none else some (origin, es ++ [(key, .value v)])

/-- Adds a value under a key with dots; the last table on its way has to be a dotted one. -/
def addPath (path : List String) (key : String) (v : Toml) : TableChange :=
  changeAt true path fun origin es =>
    if decide (origin = .dotted) = path.isEmpty then none else addKey key v origin es

/-- Defines the table under a key. -/
def defineTable (key : String) : TableChange := fun origin es =>
  match es.lookup key with
  | none => some (origin, es ++ [(key, .table .defined [])])
  | some (.table .implied inner) => some (origin, replace key (.table .defined inner) es)
  | some _ => none

/-- Opens another one of the tables under a key. -/
def appendTable (key : String) : TableChange := fun origin es =>
  match es.lookup key with
  | none => some (origin, es ++ [(key, .tables [] [])])
  | some (.tables earlier last) => some (origin, replace key (.tables (earlier ++ [last]) []) es)
  | some _ => none

end Entries

/-! ## 3. The finished value -/

mutual

/-- What stands under a key, once nothing more is added. -/
def Outline.toToml : Outline → Toml
  | .value v => v
  | .table _ es => .table (finishEntries es)
  | .tables earlier last => .array (finishTables earlier ++ [.table (finishEntries last)])

/-- The entries of a table, once nothing more is added. -/
def finishEntries : List (String × Outline) → List (String × Toml)
  | [] => []
  | (key, o) :: es => (key, o.toToml) :: finishEntries es

/-- Several tables, once nothing more is added. -/
def finishTables : List (List (String × Outline)) → List Toml
  | [] => []
  | es :: rest => .table (finishEntries es) :: finishTables rest

end

end EntityLayout.Toml

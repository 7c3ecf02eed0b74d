/-
# Reconstruction: a query for every node

The query for an entity or relationship selects its structure from the tables it owns.  The
first table is joined with every other one on their keys.  An attribute is a column of its
own name, collected into an array if the column holds one value to a row; a composite
attribute without such a column is all the columns that were split out of it.  Where
something is collected, everything else that is selected is grouped by.
-/
import EntityLayout.Sql.Query
import EntityLayout.Ownership
import EntityLayout.Structure

namespace EntityLayout

open Sql (Expr SelectItem Join Query Dialect)

/-! ## 1. Errors -/

/-- Why there is no query for a node. -/
inductive ReconstructionError where
  | unknownNode (node : String)
  | noTables (node : String)
  | unknownTable (node table : String)
  | noJoinKey (node table : String)
  | noColumn (node name : String)
  /-- the text of the query is no SQL; names the dialect -/
  | unreadable (dialect : Dialect)
  deriving DecidableEq, Repr

/-- The wording of a failure. -/
def ReconstructionError.message : ReconstructionError → String
  | .unknownNode node => "No logical structure recorded for " ++ node
  | .noTables node => node ++ " owns no tables"
  | .unknownTable node table =>
    "Table " ++ table ++ " owned by " ++ node ++ " is not in the physical schema"
  | .noJoinKey node table =>
    "Cannot join " ++ table ++ " for " ++ node ++ ": its first column is not a key"
  | .noColumn node name =>
    "No column for " ++ node ++ "." ++ name ++ " in its owning tables"
  | .unreadable d => "Invalid SQL for " ++ d.name

namespace Reconstruction

/-! ## 2. Items of the select list -/

/-- A column of a table, as an expression. -/
def columnOf (t : Table) (c : Column) : Expr := .column (some t.name) c.name

/-- The first table that has a column of that name, with the column. -/
def direct? (tables : List Table) (name : String) : Option (Table × Column) :=
  tables.findSome? fun t => (t.column? name).map fun c => (t, c)

/-- The item for a column that has the attribute's name. -/
def directItem (name : String) (t : Table) (c : Column) : SelectItem :=
  let e := columnOf t c
  ⟨if c.form = .normalized then e.arrayAgg else e, some name⟩

/-- The items for the columns that were split out of an attribute. -/
def flattenedItems (tables : List Table) (name : String) : List SelectItem :=
  tables.flatMap fun t =>
    (t.columns.filter fun c => c.flattenedFrom = some name).map fun c =>
      ⟨columnOf t c, some c.name⟩

/-- The items for an attribute. -/
def itemsFor (node : String) (tables : List Table) (a : Attribute) :
    Except ReconstructionError (List SelectItem) :=
  match direct? tables a.name with
  | some (t, c) => .ok [directItem a.name t c]
  | none =>
    let items := if a.isComposite then flattenedItems tables a.name else []
    if items.isEmpty then .error (.noColumn node a.name) else .ok items

/-- The items for a structure. -/
def itemsForAll (node : String) (tables : List Table) :
    List Attribute → Except ReconstructionError (List SelectItem)
  | [] => .ok []
  | a :: as => do
    let items ← itemsFor node tables a
    let rest ← itemsForAll node tables as
    pure (items ++ rest)

/-! ## 3. Joins and groups -/

/-- The column that a table is joined by. -/
def joinKey (node : String) (t : Table) : Except ReconstructionError Column :=
  match t.joinKey? with
  | some c => .ok c
  | none => .error (.noJoinKey node t.name)

/-- The joins of further tables with the first one. -/
def joinsWith (node : String) (anchor : Table) (key : Column) :
    List Table → Except ReconstructionError (List Join)
  | [] => .ok []
  | t :: ts => do
    let c ← joinKey node t
    let rest ← joinsWith node anchor key ts
    pure (⟨t.name, .equal (columnOf anchor key) (columnOf t c)⟩ :: rest)

/-- The joins of the tables after the first. -/
def joins (node : String) (anchor : Table) :
    List Table → Except ReconstructionError (List Join)
  | [] => .ok []
  | ts => do
    let key ← joinKey node anchor
    joinsWith node anchor key ts

/-- What has to be grouped by: everything that is not collected, if anything is. -/
def groupBy (items : List SelectItem) : List Expr :=
  if items.any fun i => i.expr.isAggregate then
    (items.filter fun i => !i.expr.isAggregate).map SelectItem.expr
  else []

/-! ## 4. Queries -/

/-- The query for a structure held by tables. -/
def query (node : String) (attributes : List Attribute) :
    List Table → Except ReconstructionError Query
  | [] => .error (.noTables node)
  | anchor :: others => do
    let joins ← joins node anchor others
    let items ← itemsForAll node (anchor :: others) attributes
    pure ⟨items, some anchor.name, joins, groupBy items⟩

/-- The text of a query; one that no reader of SQL accepts is refused if `validate` is set. -/
def render (d : Dialect) (validate : Bool) (q : Query) : Except ReconstructionError String :=
  if validate && !q.isReadable then .error (.unreadable d) else .ok (q.text d)

end Reconstruction

end EntityLayout

/-
# Physical tables

The tables of a layout and the composite types of their columns.  The first column of a table
is the one it is joined by.  Every column tells where it comes from.
-/
import EntityLayout.Register
import EntityLayout.Sql.Statement

namespace EntityLayout

open Sql (SqlType)

/-! ## 1. Columns and tables -/

/-- What a column holds. -/
inductive ColumnForm where
  /-- the key of an entity -/
  | key (entity : String)
  /-- one value -/
  | value
  /-- a composite attribute as a whole -/
  | composite
  /-- all values of a multivalued attribute -/
  | array
  /-- one value of a multivalued attribute, each in a row of its own -/
  | normalized
  deriving DecidableEq, Repr

/-- Whether a column holds the key of an entity. -/
def ColumnForm.isKey : ColumnForm → Bool
  | .key _ => true
  | _ => false

/-- A column of a table. -/
structure Column where
  name : String
  type : SqlType
  /-- the path of the attribute it holds, or for a key its own name -/
  source : String
  form : ColumnForm
  /-- the outermost composite attribute it was split out of -/
  flattenedFrom : Option String
  deriving DecidableEq, Repr

/-- The key column of an entity. -/
def Column.key (name entity : String) : Column := ⟨name, .integer, name, .key entity, none⟩

/-- A table, built from the grouping at an index. -/
structure Table where
  name : String
  grouping : Nat
  columns : List Column
  deriving DecidableEq, Repr

namespace Table

/-- The first column of that name. -/
def column? (t : Table) (name : String) : Option Column := t.columns.find? (·.name = name)

/-- Whether a column holds the attribute of that path. -/
def hasSource (t : Table) (source : String) : Bool := t.columns.any (·.source = source)

/-- The column that the table is joined by: its first, if that is a key. -/
def joinKey? (t : Table) : Option Column := t.columns.head?.filter (·.form.isKey)

end Table

/-! ## 2. Composite types and schemas -/

/-- A field of a composite type. -/
structure CompositeField where
  name : String
  type : SqlType
  deriving DecidableEq, Repr

/-- A composite type. -/
structure CompositeType where
  name : String
  fields : List CompositeField
  deriving DecidableEq, Repr

/-- Tables in the order of their groupings, and the composite types they use in the order of
their making. -/
structure PhysicalSchema where
  tables : List Table
  types : Register CompositeType
  deriving DecidableEq

namespace PhysicalSchema

/-- The schema without tables. -/
def empty : PhysicalSchema := ⟨[], .empty⟩

instance : Inhabited PhysicalSchema := ⟨empty⟩

/-- The first table of that name. -/
def table? (s : PhysicalSchema) (name : String) : Option Table := s.tables.find? (·.name = name)

/-- The statements that define the composite types and then the tables. -/
def statements (s : PhysicalSchema) : List Sql.Statement :=
  (s.types.values.map fun t => .createType t.name (t.fields.map fun f => ⟨f.name, f.type⟩))
    ++ s.tables.map fun t => .createTable t.name (t.columns.map fun c => ⟨c.name, c.type⟩)

/-- The script that defines the schema. -/
def script (s : PhysicalSchema) (d : Sql.Dialect) : String := Sql.script d s.statements

end PhysicalSchema

end EntityLayout

/-
# Physical schemas as JSON

The written form of tables and composite types.
-/
import EntityLayout.Json.Print
import EntityLayout.Json.Reader
import EntityLayout.Tables.Basic

namespace EntityLayout

open Json (Reader Field)
open Sql (SqlType)

/-! ## 1. Column types -/

namespace Sql.SqlType

/-- Reads a column type that is nested no deeper than `depth`. -/
def readerWithin : (depth : Nat) → Reader SqlType
  | 0 => fun _ _ => Json.fail .malformed
  | depth + 1 => Json.variant
      [("integer", .bare .integer),
        ("varchar", .holding fun scope d => do
          let n ← Json.nat16 scope d
          pure (.varchar n)),
        ("text", .bare .text),
        ("composite", .holding fun scope d => do
          let name ← Json.string scope d
          pure (.composite name)),
        ("array", .holding fun scope d => do
          let item ← readerWithin depth scope d
          pure (.array item))]

/-- Reads a column type.  A text is not nested deeper than the limit. -/
def reader : Reader SqlType := readerWithin (Json.nestingLimit + 1)

/-- Writes a column type. -/
def toJson : SqlType → Json
  | .integer => .text "integer"
  | .varchar n => .object [("varchar", .nat n)]
  | .text => .text "text"
  | .composite name => .object [("composite", .text name)]
  | .array item => .object [("array", item.toJson)]

end Sql.SqlType

/-! ## 2. Columns and tables -/

namespace ColumnForm

/-- Reads the form of a column. -/
def reader : Reader ColumnForm :=
  Json.tagged "internally tagged enum ColumnForm" "kind"
    [("key", fun scope d => do
        let (entity, ()) ← @Json.record [String] "struct variant ColumnForm::Key"
          (.required "entity" Json.string, ()) scope d
        pure (.key entity)),
      ("value", Json.noFields .value),
      ("composite", Json.noFields .composite),
      ("array", Json.noFields .array),
      ("normalized", Json.noFields .normalized)]

/-- Writes the form of a column. -/
def toJson : ColumnForm → Json
  | .key entity => .object [("kind", .text "key"), ("entity", .text entity)]
  | .value => .object [("kind", .text "value")]
  | .composite => .object [("kind", .text "composite")]
  | .array => .object [("kind", .text "array")]
  | .normalized => .object [("kind", .text "normalized")]

end ColumnForm

/-- Reads a column. -/
def Column.reader : Reader Column := fun scope d => do
  let (name, type, source, form, flattenedFrom, ()) ←
    @Json.record [String, SqlType, String, ColumnForm, Option String] "struct PhysicalColumn"
      (.required "name" Json.string,
        .required "sql_type" SqlType.reader,
        .required "source" Json.string,
        .required "form" ColumnForm.reader,
        .optional "flattened_from" Json.string, ()) scope d
  pure ⟨name, type, source, form, flattenedFrom⟩

/-- Writes a column. -/
def Column.toJson (c : Column) : Json :=
  .object ([("name", .text c.name), ("sql_type", c.type.toJson), ("source", .text c.source),
    ("form", c.form.toJson)] ++ Json.fieldIfSome "flattened_from" .text c.flattenedFrom)

/-- Reads a table. -/
def Table.reader : Reader Table := fun scope d => do
  let (name, grouping, columns, ()) ←
    @Json.record [String, Nat, List Column] "struct PhysicalTable"
      (.required "name" Json.string,
        .required "grouping" Json.nat64,
        .required "columns" (Json.list Column.reader), ()) scope d
  pure ⟨name, grouping, columns⟩

/-- Writes a table. -/
def Table.toJson (t : Table) : Json :=
  .object [("name", .text t.name), ("grouping", .nat t.grouping),
    ("columns", .array (t.columns.map Column.toJson))]

/-! ## 3. Composite types and schemas -/

/-- Reads a field of a composite type. -/
def CompositeField.reader : Reader CompositeField := fun scope d => do
  let (name, type, ()) ← @Json.record [String, SqlType] "struct CompositeField"
    (.required "name" Json.string, .required "sql_type" SqlType.reader, ()) scope d
  pure ⟨name, type⟩

/-- Writes a field of a composite type. -/
def CompositeField.toJson (f : CompositeField) : Json :=
  .object [("name", .text f.name), ("sql_type", f.type.toJson)]

/-- Reads a composite type. -/
def CompositeType.reader : Reader CompositeType := fun scope d => do
  let (name, fields, ()) ← @Json.record [String, List CompositeField] "struct CompositeType"
    (.required "name" Json.string,
      .required "fields" (Json.list CompositeField.reader), ()) scope d
  pure ⟨name, fields⟩

/-- Writes a composite type. -/
def CompositeType.toJson (t : CompositeType) : Json :=
  .object [("name", .text t.name), ("fields", .array (t.fields.map CompositeField.toJson))]

namespace PhysicalSchema

/-- Reads tables and composite types. -/
def reader : Reader PhysicalSchema := fun scope d => do
  let (tables, types, ()) ←
    @Json.record [List Table, List (String × CompositeType)] "struct PhysicalSchema"
      (.required "tables" (Json.list Table.reader),
        .withDefault "types" (Json.entries CompositeType.reader) [], ()) scope d
  pure ⟨tables, .ofList types⟩

/-- Writes tables and composite types. -/
def toJson (s : PhysicalSchema) : Json :=
  .object [("tables", .array (s.tables.map Table.toJson)),
    ("types", .object (s.types.entries.map fun e => (e.1, e.2.toJson)))]

/-- The text of the written form. -/
def toText (s : PhysicalSchema) : String := s.toJson.pretty

/-- Reads the text of a written form. -/
def ofText (text : String) : Except Json.ReadError PhysicalSchema := Json.readText reader text

end PhysicalSchema

end EntityLayout

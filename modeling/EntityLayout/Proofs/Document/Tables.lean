/-
# Physical schemas survive being written

Tables and composite types are read back from their text as they were.

* `PhysicalSchema.Fits`: what the format has room for, numbers of 64 bits and 16 bits and 127
  levels of nesting.
* `PhysicalSchema.ofText_toText`: reading what was written.
-/
import EntityLayout.Document.Tables
import EntityLayout.Proofs.Json.Reading
import EntityLayout.Proofs.Register

namespace EntityLayout

open Json (Reads)
open Sql (SqlType)

/-! ## 1. Column types -/

namespace Sql.SqlType

/-- The levels of nesting that a written type takes: one for each array around it, and one for a
width or a name. -/
def levels : SqlType → Nat
  | .varchar _ | .composite _ => 1
  | .array item => item.levels + 1
  | _ => 0

/-- Every width is a number of 16 bits. -/
def HasWidth : SqlType → Prop
  | .varchar n => n < 0x10000
  | .array item => item.HasWidth
  | _ => True

theorem reads : ∀ {depth : Nat} {t : SqlType}, t.HasWidth → t.levels < depth →
    Reads (readerWithin depth) t.toJson t
  | 0, _, _, h => absurd h (Nat.not_lt_zero _)
  | _ + 1, .integer, _, _ => .bare rfl
  | _ + 1, .varchar _, hw, _ =>
    .holding rfl (.andThen (.natural (Nat.le_of_lt_succ hw)) rfl)
  | _ + 1, .text, _, _ => .bare rfl
  | _ + 1, .composite name, _, _ => .holding rfl (.andThen (.string name) rfl)
  | _ + 1, .array _, hw, h =>
    .holding rfl (.andThen (reads hw (Nat.lt_of_succ_lt_succ h)) rfl)

theorem fits_toJson : ∀ {n : Nat} {t : SqlType}, t.HasWidth → t.levels ≤ n → t.toJson.Fits n
  | _, .integer, _, _ => Json.fits_text _ _
  | _, .text, _, _ => Json.fits_text _ _
  | n + 1, .varchar w, hw, _ => Json.fits_object (by
      simpa using Json.fits_nat (Nat.lt_trans hw (by decide)))
  | n + 1, .composite _, _, _ => Json.fits_object (by simp)
  | n + 1, .array t, hw, h => Json.fits_object (by
      simpa using fits_toJson (t := t) hw (Nat.le_of_succ_le_succ h))

end Sql.SqlType

/-! ## 2. Columns and tables -/

/-- The format has room for a column type: in a schema it stands five levels deep. -/
structure Sql.SqlType.Fits (t : SqlType) : Prop where
  width : t.HasWidth
  levels : t.levels ≤ 122

theorem Sql.SqlType.Fits.reads {t : SqlType} (h : t.Fits) : Reads SqlType.reader t.toJson t :=
  SqlType.reads h.width (Nat.lt_of_le_of_lt h.levels (by decide))

theorem ColumnForm.reads (f : ColumnForm) : Reads ColumnForm.reader f.toJson f := by
  cases f with
  | key entity =>
    refine .taggedRecord (v := ?values) rfl ?written (by decide) ?made
    case values => exact (entity, ())
    case written => exact .required (.string entity) Json.Fields.written_nil
    case made => rfl
  | value => exact .tagged rfl (by simp) fun _ _ => rfl
  | composite => exact .tagged rfl (by simp) fun _ _ => rfl
  | array => exact .tagged rfl (by simp) fun _ _ => rfl
  | normalized => exact .tagged rfl (by simp) fun _ _ => rfl

theorem ColumnForm.fits_toJson (f : ColumnForm) : f.toJson.Fits 1 := by
  cases f <;> exact Json.fits_object (by simp)

theorem Column.reads {c : Column} (h : c.type.Fits) : Reads Column.reader c.toJson c := by
  refine .andThen (.record ?_ (by decide)) rfl (a := (c.name, c.type, c.source, c.form,
    c.flattenedFrom, ()))
  exact .required (.string _) (.required h.reads (.required (.string _)
    (.required c.form.reads (.lastOptional _ fun s _ => ⟨.string s, by simp⟩))))

theorem Column.fits_toJson {c : Column} (h : c.type.Fits) : c.toJson.Fits 123 := by
  refine Json.fits_object fun f hf => ?_
  simp only [List.mem_append, List.mem_cons, List.not_mem_nil, or_false] at hf
  rcases hf with (rfl | rfl | rfl | rfl) | hf
  · exact Json.fits_text _ _
  · exact SqlType.fits_toJson h.width h.levels
  · exact Json.fits_text _ _
  · exact c.form.fits_toJson.mono (by decide)
  · exact Json.fits_fieldIfSome (fun _ _ => Json.fits_text _ _) f hf

/-- The format has room for a table. -/
structure Table.Fits (t : Table) : Prop where
  grouping : t.grouping < 0x10000000000000000
  columns : ∀ c ∈ t.columns, c.type.Fits

theorem Table.reads {t : Table} (h : t.Fits) : Reads Table.reader t.toJson t := by
  refine .andThen (.record ?_ (by decide)) rfl (a := (t.name, t.grouping, t.columns, ()))
  exact .required (.string _) (.required (.natural (Nat.le_of_lt_succ h.grouping))
    (.required (.list_map fun c hc => Column.reads (h.columns c hc)) Json.Fields.written_nil))

theorem Table.fits_toJson {t : Table} (h : t.Fits) : t.toJson.Fits 125 := by
  refine Json.fits_object fun f hf => ?_
  simp only [List.mem_cons, List.not_mem_nil, or_false] at hf
  rcases hf with rfl | rfl | rfl
  · exact Json.fits_text _ _
  · exact Json.fits_nat h.grouping
  · refine Json.fits_array fun j hj => ?_
    obtain ⟨c, hc, rfl⟩ := List.mem_map.mp hj
    exact Column.fits_toJson (h.columns c hc)

/-! ## 3. Composite types and schemas -/

theorem CompositeField.reads {f : CompositeField} (h : f.type.Fits) :
    Reads CompositeField.reader f.toJson f := by
  refine .andThen (.record ?_ (by decide)) rfl (a := (f.name, f.type, ()))
  exact .required (.string _) (.required h.reads Json.Fields.written_nil)

theorem CompositeField.fits_toJson {f : CompositeField} (h : f.type.Fits) :
    f.toJson.Fits 123 := by
  refine Json.fits_object fun g hg => ?_
  simp only [List.mem_cons, List.not_mem_nil, or_false] at hg
  rcases hg with rfl | rfl
  · exact Json.fits_text _ _
  · exact SqlType.fits_toJson h.width h.levels

/-- The format has room for a composite type. -/
def CompositeType.Fits (t : CompositeType) : Prop := ∀ f ∈ t.fields, f.type.Fits

theorem CompositeType.reads {t : CompositeType} (h : t.Fits) :
    Reads CompositeType.reader t.toJson t := by
  refine .andThen (.record ?_ (by decide)) rfl (a := (t.name, t.fields, ()))
  exact .required (.string _) (.required (.list_map fun f hf => CompositeField.reads (h f hf))
    Json.Fields.written_nil)

theorem CompositeType.fits_toJson {t : CompositeType} (h : t.Fits) : t.toJson.Fits 125 := by
  refine Json.fits_object fun g hg => ?_
  simp only [List.mem_cons, List.not_mem_nil, or_false] at hg
  rcases hg with rfl | rfl
  · exact Json.fits_text _ _
  · refine Json.fits_array fun j hj => ?_
    obtain ⟨f, hf, rfl⟩ := List.mem_map.mp hj
    exact CompositeField.fits_toJson (h f hf)

namespace PhysicalSchema

/-- The format has room for a schema. -/
structure Fits (s : PhysicalSchema) : Prop where
  tables : ∀ t ∈ s.tables, t.Fits
  types : ∀ e ∈ s.types.entries, e.2.Fits

theorem reads {s : PhysicalSchema} (h : s.Fits) : Reads reader s.toJson s := by
  refine .andThen (.record ?_ (by decide)) ?_ (a := (s.tables, s.types.entries, ()))
  · exact .required (.list_map fun t ht => Table.reads (h.tables t ht))
      (.withDefault (.entries fun e he => CompositeType.reads (h.types e he))
        Json.Fields.written_nil)
  · show Except.ok (⟨s.tables, .ofList s.types.entries⟩ : PhysicalSchema) = .ok s
    rw [Register.ofList_entries]

theorem fits_toJson {s : PhysicalSchema} (h : s.Fits) : s.toJson.Fits Json.nestingLimit := by
  refine Json.fits_object fun f hf => ?_
  simp only [List.mem_cons, List.not_mem_nil, or_false] at hf
  rcases hf with rfl | rfl
  · refine Json.fits_array fun j hj => ?_
    obtain ⟨t, ht, rfl⟩ := List.mem_map.mp hj
    exact Table.fits_toJson (h.tables t ht)
  · refine Json.fits_object fun g hg => ?_
    obtain ⟨e, he, rfl⟩ := List.mem_map.mp hg
    exact CompositeType.fits_toJson (h.types e he)

/-- **A schema is read back from its text.** -/
theorem ofText_toText {s : PhysicalSchema} (h : s.Fits) : ofText s.toText = .ok s :=
  Json.readText_pretty (reads h) (fits_toJson h)

end PhysicalSchema

end EntityLayout

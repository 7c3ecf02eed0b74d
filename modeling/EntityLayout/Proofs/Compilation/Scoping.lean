/-
# Queries are well scoped

The queries of a compilation name only what its script creates, and nothing they name has two
meanings.

* `PhysicalSchema.tableDefs_statements`: a table is created once, with its columns.
* `Compilation.isWellScoped_queryFor`: **every query is well scoped against the script.**
-/
import EntityLayout.Proofs.Compilation.Passes
import EntityLayout.Proofs.Reconstruction

namespace EntityLayout

open Sql (ColumnDef tableDefs)

/-! ## 1. The tables of a schema -/

namespace PhysicalSchema

theorem filterMap_tableDef? {name : String} : ∀ ts : List Table,
    (ts.map fun t => Sql.Statement.createTable t.name (t.columns.map fun c => ⟨c.name, c.type⟩)
      ).filterMap (Sql.Statement.tableDef? name) =
        (ts.filter fun t => t.name = name).map fun t => t.columns.map fun c => ⟨c.name, c.type⟩
  | [] => rfl
  | t :: ts => by
    rw [List.map_cons, List.filterMap_cons, filterMap_tableDef? ts, Sql.Statement.tableDef?]
    by_cases h : t.name = name <;> simp [h]

/-- The definitions of a table are those of the tables of its name. -/
theorem tableDefs_eq (s : PhysicalSchema) (name : String) :
    tableDefs s.statements name =
      (s.tables.filter fun t => t.name = name).map fun t =>
        t.columns.map fun c => ⟨c.name, c.type⟩ := by
  have htypes : (s.types.values.map fun t =>
      Sql.Statement.createType t.name (t.fields.map fun f => ⟨f.name, f.type⟩)).filterMap
        (Sql.Statement.tableDef? name) = [] := by
    simp [Sql.Statement.tableDef?]
  rw [tableDefs, statements, List.filterMap_append, htypes, List.nil_append,
    filterMap_tableDef?]

/-- **A table is created once, with its columns**, if no two tables share a name. -/
theorem tableDefs_statements {s : PhysicalSchema} (h : (s.tables.map Table.name).Nodup) {t : Table}
    (ht : t ∈ s.tables) :
    tableDefs s.statements t.name = [t.columns.map fun c => ⟨c.name, c.type⟩] := by
  have hone : (s.tables.filter fun u => u.name = t.name) = [t] := by
    obtain ⟨before, after, hsplit⟩ := List.append_of_mem ht
    rw [hsplit, List.map_append, List.map_cons, List.nodup_append, List.nodup_cons] at h
    obtain ⟨-, ⟨hafter, -⟩, hbefore⟩ := h
    rw [hsplit, List.filter_append, List.filter_cons_of_pos (by simp),
      List.filter_eq_nil_iff.mpr, List.filter_eq_nil_iff.mpr, List.nil_append]
    · intro u hu
      simpa using fun e : u.name = t.name => hafter (e ▸ List.mem_map_of_mem hu)
    · intro u hu
      simpa using hbefore u.name (List.mem_map_of_mem hu) t.name List.mem_cons_self
  rw [tableDefs_eq, hone]
  rfl

end PhysicalSchema

/-! ## 2. Queries -/

namespace Compilation

variable {schema : SchemaDecl} {groupings : List Grouping} {s : Settings} {c : Compilation}

/-- **Every query is well scoped against the script**: its tables differ, each is created by one
statement, and every column it refers to is one column of one of them. -/
theorem isWellScoped_queryFor {node : String} {q : Sql.Query}
    (h : ofDecl schema groupings s = .ok c) (hq : c.compiled.queryFor c.schema node = .ok q) :
    q.IsWellScoped c.schema.statements := by
  have hpasses := ofDecl_eq_ok.mp h
  obtain ⟨as, -, hquery⟩ := hpasses.queryFor_eq_ok.mp hq
  have htables := Reconstruction.tables_query hquery
  have hnodup := synthesize_nodup hpasses.tables
  have hmem : ∀ {t}, t ∈ c.compiled.ownership.tablesIn c.schema (Text.lower node) →
      t ∈ c.schema.tables := fun ht => (Ownership.mem_tablesIn.mp ht).1
  refine ⟨?_, ?_, ?_, ?_⟩
  · obtain ⟨anchor, others, js, parts, -, -, -, rfl⟩ := Reconstruction.query_eq_ok.mp hquery
    rfl
  · rw [htables]
    exact hnodup.sublist (List.filter_sublist.map Table.name)
  · intro name hname
    rw [htables] at hname
    obtain ⟨t, ht, rfl⟩ := List.mem_map.mp hname
    exact ⟨_, PhysicalSchema.tableDefs_statements hnodup (hmem ht)⟩
  · intro ref href
    obtain ⟨t, ht, column, hcolumn, rfl⟩ := Reconstruction.references_query hquery ref href
    refine ⟨t.name, htables ▸ List.mem_map_of_mem ht, rfl, fun columns hcolumns => ?_⟩
    rw [PhysicalSchema.tableDefs_statements hnodup (hmem ht), List.mem_singleton] at hcolumns
    have hnames : columns.map ColumnDef.name = t.columns.map Column.name := by
      rw [hcolumns, List.map_map]
      rfl
    rw [hnames]
    exact List.count_eq_one_of_mem (hpasses.nodup_columns (hmem ht))
      (List.mem_map_of_mem hcolumn)

/-- The query for students, whose tables are those of persons and their own. -/
theorem isWellScoped_queryFor_student : ∃ c q,
    ofDecl .courses (Grouping.ofCourses.map .ofNames) .standard = .ok c ∧
      c.compiled.queryFor c.schema "Student" = .ok q ∧ q.IsWellScoped c.schema.statements := by
  obtain ⟨c, q, hc, hq⟩ := exists_queryFor_student
  exact ⟨c, q, hc, hq, isWellScoped_queryFor hc hq⟩

end Compilation

end EntityLayout

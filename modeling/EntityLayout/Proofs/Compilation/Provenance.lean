/-
# Which columns a query reads for an attribute

Columns tell which attributes they store, but a query finds them by their names.  The tables of
a node store attributes of other nodes too, and two attributes may go by one name.  The query
then reads the one in the first table, whose ever it is.

* `Column.IsOf`, `AttributeNode.IsWithin`: columns and parts of an attribute.
* `Compilation.IsFound`: the first attribute of its name is the one that is looked for.
* `Compilation.select_own`: **exactly then the query reads the attribute's own columns.**
* `Compilation.select_name_of_department`: persons who are called like their departments.
-/
import EntityLayout.Proofs.Compilation.Passes
import EntityLayout.Proofs.Reconstruction

namespace EntityLayout

open Reconstruction (Reads)

/-! ## 1. Columns of an attribute -/

/-- A column stores an attribute, or a part that was split out of it. -/
def Column.IsOf (path : String) (c : Column) : Prop :=
  c.source = path ∨ c.flattenedFrom.isSome = true ∧ (path ++ ".").toList <+: c.source.toList

instance (path : String) (c : Column) : Decidable (c.IsOf path) :=
  inferInstanceAs (Decidable (_ ∨ _))

/-- An attribute is the one at a path, or a part of it. -/
def AttributeNode.IsWithin (path : String) (n : AttributeNode) : Prop :=
  n.path = path ∨ n.parent.isSome = true ∧ (path ++ ".").toList <+: n.path.toList

/-- The name of the column of an attribute. -/
def AttributeNode.columnName (n : AttributeNode) : String :=
  Naming.columnName (Path.localPart n.path)

/-- A column is named and marked as that of an attribute. -/
structure AttributeNode.HasColumn (n : AttributeNode) (c : Column) : Prop where
  name : c.name = n.columnName
  source : c.source = n.path
  flattenedFrom : c.flattenedFrom = n.parent.map fun _ => Path.rootPart n.path

theorem AttributeNode.HasColumn.isOf_iff {n : AttributeNode} {c : Column} (h : n.HasColumn c)
    {path : String} : c.IsOf path ↔ n.IsWithin path := by
  rw [Column.IsOf, IsWithin, h.source, h.flattenedFrom, Option.isSome_map]

/-- Key columns are called as keys are. -/
theorem Naming.isKeyName_keyColumn (naming : Naming) (stem : String) :
    naming.isKeyName (naming.keyColumn stem) = true := by
  rw [isKeyName, keyColumn, Bool.or_eq_true, List.isSuffixOf_iff_suffix,
    List.isSuffixOf_iff_suffix, String.toList_append]
  exact .inr (List.suffix_append _ _)

namespace Compilation

/-- A table stores an attribute: that of its grouping. -/
def Stores (schema : SchemaDecl) (groupings : List Grouping) (naming : Naming) (t : Table)
    (n : AttributeNode) : Prop :=
  ∃ g, groupings[t.grouping]? = some g ∧ g.Stores schema.diagram naming n

/-- Tables are searched for an attribute by the name of its column.  It is found if, of all
attributes that go by the name, one in the first grouping is the attribute or a part of it; or,
if none does, if all that are split out of attributes of the name are parts of it. -/
structure IsFound (schema : SchemaDecl) (groupings : List Grouping) (naming : Naming)
    (tables : List Table) (path name : String) : Prop where
  called : ∀ t ∈ tables, ∀ n, Stores schema groupings naming t n → n.columnName = name →
    (∀ u ∈ tables, ∀ m, Stores schema groupings naming u m → m.columnName = name →
      t.grouping ≤ u.grouping) → n.IsWithin path
  split : (∀ t ∈ tables, ∀ n, Stores schema groupings naming t n → n.columnName ≠ name) →
    ∀ t ∈ tables, ∀ n, Stores schema groupings naming t n → n.parent.isSome = true →
      Path.rootPart n.path = name → n.IsWithin path

variable {schema : SchemaDecl} {groupings : List Grouping} {s : Settings} {c : Compilation}

namespace Passes

variable (h : Passes schema groupings s c)

include h

/-! ## 2. Columns and what they store -/

theorem exists_hasColumn {t : Table} (ht : t ∈ c.schema.tables) {n : AttributeNode}
    (hn : Stores schema groupings s.naming t n) : ∃ column ∈ t.columns, n.HasColumn column := by
  obtain ⟨g, hg, hstores⟩ := hn
  obtain ⟨g', hg', htable⟩ := synthesize_of_mem h.tables ht
  obtain rfl := Option.some.inj (hg.symm.trans hg')
  obtain ⟨only, hmem⟩ := htable.columnOf_mem h.isIndexed hstores
  exact ⟨_, hmem, rfl, rfl, rfl⟩

/-- A column that is no key stores an attribute. -/
theorem exists_stores {t : Table} (ht : t ∈ c.schema.tables) {column : Column}
    (hcolumn : column ∈ t.columns)
    (hkey : s.naming.isKeyName column.name = false ∨ column.flattenedFrom.isSome = true) :
    ∃ n, Stores schema groupings s.naming t n ∧ n.HasColumn column := by
  obtain ⟨g, hg, htable⟩ := synthesize_of_mem h.tables ht
  rcases htable.column_cases h.isIndexed hcolumn with ⟨stem, entity, rfl⟩ | ⟨n, only, hn, rfl⟩
  · rcases hkey with hkey | hkey
    · exact nomatch (Naming.isKeyName_keyColumn _ stem).symm.trans hkey
    · exact nomatch hkey
  · exact ⟨n, ⟨g, hg, hn⟩, rfl, rfl, rfl⟩

/-! ## 3. What the items for an attribute read -/

section

variable {tables : List Table} (htables : tables.Sublist c.schema.tables)

include htables

/-- An item reads one column of one table. -/
theorem reads_unique {item : Sql.SelectItem} {t u : Table} {x y : Column}
    (hx : Reads tables item t x) (hy : Reads tables item u y) : t = u ∧ x = y := by
  obtain ⟨ht, hxt, hrefs⟩ := hx
  obtain ⟨hu, hyu, hrefs'⟩ := hy
  obtain ⟨htable, hname⟩ := Prod.mk.inj (List.singleton_inj.mp (hrefs.symm.trans hrefs'))
  obtain rfl := List.inj_on_of_nodup_map (synthesize_nodup h.tables) (htables.subset ht)
    (htables.subset hu) (Option.some.inj htable)
  exact ⟨rfl, List.inj_on_of_nodup_map (h.nodup_columns (htables.subset ht)) hxt hyu hname⟩

/-- **A column of its name** is the attribute's own exactly if the attribute is found. -/
theorem isOf_iff_of_direct? {path name : String} (hname : s.naming.isKeyName name = false)
    {t : Table} {column : Column}
    (hdirect : Reconstruction.direct? tables name = some (t, column)) :
    column.IsOf path ↔ IsFound schema groupings s.naming tables path name := by
  obtain ⟨ht, hcolumn, rfl⟩ := Reconstruction.direct?_eq_some hdirect
  have hfirst := Reconstruction.le_of_direct? hdirect ((synthesize_sorted h.tables).sublist htables)
  obtain ⟨n, hn, hof⟩ := h.exists_stores (htables.subset ht) hcolumn (.inl hname)
  have hleast : ∀ u ∈ tables, ∀ m, Stores schema groupings s.naming u m →
      m.columnName = column.name → t.grouping ≤ u.grouping := by
    intro u hu m hm hmname
    obtain ⟨x, hx, hxof⟩ := h.exists_hasColumn (htables.subset hu) hm
    exact hfirst u hu x hx (hxof.name.trans hmname)
  rw [hof.isOf_iff]
  constructor
  · intro hwithin
    refine ⟨fun u hu m hm hmname hmin => ?_, fun hnone => absurd hof.name.symm (hnone t ht n hn)⟩
    -- an attribute of the first grouping has the column that was found
    obtain rfl : t = u := synthesize_inj h.tables (htables.subset ht) (htables.subset hu)
      (Nat.le_antisymm (hleast u hu m hm hmname) (hmin t ht n hn hof.name.symm))
    obtain ⟨x, hx, hxof⟩ := h.exists_hasColumn (htables.subset ht) hm
    obtain rfl := List.inj_on_of_nodup_map (h.nodup_columns (htables.subset ht)) hx hcolumn
      (hxof.name.trans hmname)
    exact hxof.isOf_iff.mp (hof.isOf_iff.mpr hwithin)
  · exact fun hfound => hfound.called t ht n hn hof.name.symm hleast

/-- **If no column has its name**, all that is split out of an attribute of the name is the
attribute's own exactly if the attribute is found. -/
theorem isOf_iff_of_flattened {path name : String}
    (hdirect : Reconstruction.direct? tables name = none) :
    (∀ t ∈ tables, ∀ column ∈ t.columns, column.flattenedFrom = some name → column.IsOf path) ↔
      IsFound schema groupings s.naming tables path name := by
  have hnone : ∀ t ∈ tables, ∀ n, Stores schema groupings s.naming t n → n.columnName ≠ name := by
    intro t ht n hn
    obtain ⟨x, hx, hof⟩ := h.exists_hasColumn (htables.subset ht) hn
    rw [← hof.name]
    exact Reconstruction.direct?_eq_none.mp hdirect t ht x hx
  constructor
  · intro hown
    refine ⟨fun t ht n hn hcalled => absurd hcalled (hnone t ht n hn),
      fun _ t ht n hn hpart hroot => ?_⟩
    obtain ⟨x, hx, hof⟩ := h.exists_hasColumn (htables.subset ht) hn
    obtain ⟨parent, hparent⟩ := Option.isSome_iff_exists.mp hpart
    refine hof.isOf_iff.mp (hown t ht x hx ?_)
    rw [hof.flattenedFrom, hparent, Option.map_some, hroot]
  · intro hfound t ht x hx hflat
    obtain ⟨n, hn, hof⟩ := h.exists_stores (htables.subset ht) hx (.inr (by rw [hflat]; rfl))
    obtain ⟨parent, hparent, hroot⟩ := Option.map_eq_some_iff.mp (hof.flattenedFrom.symm.trans hflat)
    exact hof.isOf_iff.mpr (hfound.split hnone t ht n hn (by rw [hparent]; rfl) hroot)

/-- **The items for an attribute read its own columns exactly if it is found.** -/
theorem reads_own_iff {node path : String} {a : Attribute} {items : List Sql.SelectItem}
    (hname : s.naming.isKeyName a.name = false)
    (hitems : Reconstruction.itemsFor node tables a = .ok items) :
    (∀ item ∈ items, ∃ t column, Reads tables item t column ∧ column.IsOf path) ↔
      IsFound schema groupings s.naming tables path a.name := by
  rcases Reconstruction.itemsFor_eq_ok.mp hitems with
    ⟨t, column, hdirect, rfl⟩ | ⟨hdirect, -, rfl, -⟩
  · rw [← h.isOf_iff_of_direct? htables hname hdirect, List.forall_mem_singleton]
    obtain ⟨ht, hcolumn, -⟩ := Reconstruction.direct?_eq_some hdirect
    have hreads : Reads tables (Reconstruction.directItem a.name t column) t column :=
      ⟨ht, hcolumn, Reconstruction.references_directItem _ _ _⟩
    constructor
    · rintro ⟨u, x, hx, hof⟩
      rwa [(h.reads_unique htables hreads hx).2]
    · exact fun hof => ⟨t, column, hreads, hof⟩
  · rw [← h.isOf_iff_of_flattened htables hdirect]
    have hreads : ∀ {t column}, t ∈ tables → column ∈ t.columns →
        Reads tables ⟨Reconstruction.columnOf t column, some column.name⟩ t column :=
      fun ht hcolumn => ⟨ht, hcolumn, by simp [Reconstruction.columnOf, Sql.Expr.references]⟩
    constructor
    · intro hown t ht column hcolumn hflat
      obtain ⟨u, x, hx, hof⟩ := hown _ (Reconstruction.mem_flattenedItems.mpr
        ⟨t, ht, column, hcolumn, hflat, rfl⟩)
      rwa [(h.reads_unique htables (hreads ht hcolumn) hx).2]
    · intro hown item hitem
      obtain ⟨t, ht, column, hcolumn, hflat, rfl⟩ := Reconstruction.mem_flattenedItems.mp hitem
      exact ⟨t, column, hreads ht hcolumn, hown t ht column hcolumn hflat⟩

end

end Passes

/-- **A query reads for a declared attribute that is no key its own columns exactly if the
attribute is found** among those that the tables of the node store. -/
theorem select_own {node : String} {as : List Attribute} {q : Sql.Query}
    (h : ofDecl schema groupings s = .ok c) (hdeclares : schema.Declares (Text.lower node) as)
    (hq : c.compiled.queryFor c.schema node = .ok q) :
    ∃ front parts, q.select = front ++ parts.flatten ∧
      List.Forall₂ (fun a items => s.naming.isKeyName (Text.lower a.name) = false →
        Reconstruction.itemsFor (Text.lower node)
            (c.compiled.ownership.tablesIn c.schema (Text.lower node)) a.logical = .ok items ∧
          ((∀ item ∈ items, ∃ t column,
              Reads (c.compiled.ownership.tablesIn c.schema (Text.lower node)) item t column ∧
                column.IsOf (a.pathBelow (Text.lower node))) ↔
            IsFound schema groupings s.naming
              (c.compiled.ownership.tablesIn c.schema (Text.lower node))
              (a.pathBelow (Text.lower node)) (Text.lower a.name))) as parts := by
  have hpasses := ofDecl_eq_ok.mp h
  obtain ⟨logical, hget, hquery⟩ := hpasses.queryFor_eq_ok.mp hq
  obtain ⟨front, own, hstructure, hown⟩ := hpasses.structure_declared hdeclares
  obtain rfl := Option.some.inj (hget.symm.trans hstructure)
  obtain ⟨anchor, others, joins, parts, -, -, hparts, rfl⟩ := Reconstruction.query_eq_ok.mp hquery
  have hownParts := (List.forall₂_drop_append _ front own hparts.flip).flip
  refine ⟨(parts.take front.length).flatten, parts.drop front.length, ?_,
    (forall₂_comp hown hownParts).imp ?_⟩
  · rw [← List.flatten_append, List.take_append_drop]
  · rintro a items ⟨b, hb, hitems⟩ hkey
    obtain rfl := hb hkey
    refine ⟨hitems, ?_⟩
    rw [← Attribute.name_logical] at hkey ⊢
    exact hpasses.reads_own_iff List.filter_sublist hkey hitems

/-- The query for students, whose one attribute follows those of persons. -/
theorem select_own_student : ∃ c q front, ∃ parts : List (List Sql.SelectItem),
    ofDecl .courses (Grouping.ofCourses.map .ofNames) .standard = .ok c ∧
      SchemaDecl.courses.Declares (Text.lower "Student")
        [⟨"year", .integer, false, false, false, []⟩] ∧
      c.compiled.queryFor c.schema "Student" = .ok q ∧ q.select = front ++ parts.flatten ∧
        parts.length = 1 := by
  obtain ⟨c, q, hc, hq⟩ := exists_queryFor_student
  have hdeclares : SchemaDecl.courses.Declares (Text.lower "Student")
      [⟨"year", .integer, false, false, false, []⟩] :=
    .entity (e := ⟨"Student", .subclass, some "Person", _⟩) (by simp [SchemaDecl.courses])
  obtain ⟨front, parts, hselect, hall⟩ := select_own hc hdeclares hq
  exact ⟨c, q, front, parts, hc, hdeclares, hq, hselect, hall.length_eq.symm⟩

end Compilation

/-! ## 4. An attribute that is not found -/

/-- Persons and the departments they work in; both have names. -/
def SchemaDecl.departments : SchemaDecl where
  entities := [
    ⟨"Person", .regular, none, [⟨"person_id", .integer, true, false, false, []⟩,
      ⟨"name", .varchar, false, false, false, []⟩, ⟨"age", .integer, false, false, false, []⟩]⟩,
    ⟨"Department", .regular, none, [⟨"department_id", .integer, true, false, false, []⟩,
      ⟨"name", .varchar, false, false, false, []⟩]⟩]
  relationships := [⟨"Works", ⟨"Person", none⟩, ⟨"Department", none⟩, []⟩]

/-- Departments are stored with those who work in them, and names of persons apart. -/
def Grouping.ofDepartments : List (List String) := [
  ["Works", "Department", "Department.name", "Person", "Person.age"], ["Person", "Person.name"]]

/-- **Persons are called like their departments**: the first table of a person has a column
`name`, that of the department. -/
theorem Compilation.select_name_of_department : ∃ c q item t column,
    ofDecl .departments (Grouping.ofDepartments.map .ofNames) .standard = .ok c ∧
      c.compiled.queryFor c.schema "Person" = .ok q ∧ item ∈ q.select ∧
      SchemaDecl.departments.Declares "person" [⟨"person_id", .integer, true, false, false, []⟩,
        ⟨"name", .varchar, false, false, false, []⟩, ⟨"age", .integer, false, false, false, []⟩] ∧
      Naming.standard.isKeyName "name" = false ∧
      Reconstruction.itemsFor "person" (c.compiled.ownership.tablesIn c.schema "person")
        (Attribute.logical ⟨"name", .varchar, false, false, false, []⟩) = .ok [item] ∧
      Reads (c.compiled.ownership.tablesIn c.schema "person") item t column ∧
      column.source = "department.name" ∧ ¬ column.IsOf "person.name" := by
  have heval : (ofDecl .departments (Grouping.ofDepartments.map .ofNames) .standard).toOption.any
      (fun c => (c.compiled.queryFor c.schema "Person").toOption.any fun q =>
        (Reconstruction.direct? (c.compiled.ownership.tablesIn c.schema "person") "name").any
          fun p => decide (Reconstruction.directItem "name" p.1 p.2 ∈ q.select ∧
            p.2.source = "department.name" ∧ ¬ p.2.IsOf "person.name")) = true := by
    decide +kernel
  obtain ⟨c, hc, heval⟩ := exists_of_any heval
  obtain ⟨q, hq, heval⟩ := exists_of_any heval
  obtain ⟨⟨t, column⟩, hdirect, heval⟩ := (Option.any_eq_true _ _).mp heval
  obtain ⟨hitem, hsource, hof⟩ := of_decide_eq_true heval
  obtain ⟨ht, hcolumn, -⟩ := Reconstruction.direct?_eq_some hdirect
  have hname : (Attribute.logical ⟨"name", .varchar, false, false, false, []⟩).name = "name" := by
    decide +kernel
  have hperson : ⟨"Person", .regular, none, _⟩ ∈ SchemaDecl.departments.entities :=
    List.mem_cons_self
  have hpath : Text.lower "Person" = "person" := by decide +kernel
  have hdeclares := SchemaDecl.Declares.entity hperson
  rw [EntityDecl.path, hpath] at hdeclares
  refine ⟨c, q, _, t, column, hc, hq, hitem, hdeclares, by decide +kernel,
    Reconstruction.itemsFor_eq_ok.mpr (.inl ⟨t, column, ?_, by rw [hname]⟩),
    ⟨ht, hcolumn, Reconstruction.references_directItem _ _ _⟩, hsource, hof⟩
  rw [hname]
  exact hdirect

end EntityLayout

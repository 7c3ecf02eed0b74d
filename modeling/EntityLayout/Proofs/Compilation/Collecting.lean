/-
# Whether queries collect what is spread over rows

A multivalued attribute that is the only one of its grouping has a value in each row, and a query
that reads its column by the name of the column collects the values.  Where the column was split out
of a composite attribute, and is found by that, it is read as it is.

* `Compilation.IsSpread`: an attribute has a value in each row of a table.
* `Compilation.CollectsValues`: an item collects the values that it reads.
* `Compilation.HasGatheredParts`: no part of an attribute is spread and was split out of it.
* `Compilation.collectsValues_iff`: **all items collect values exactly if all attributes have
  gathered parts.**
* `Compilation.not_collectsValues_contacts`: the phones of a person, who then comes once for each.
-/
import EntityLayout.Proofs.Compilation.Coverage
import EntityLayout.Proofs.Compilation.Provenance

namespace EntityLayout

open Reconstruction (Reads directItem direct? flattenedItems itemsFor)

namespace Compilation

variable {schema : SchemaDecl} {groupings : List Grouping} {s : Settings} {c : Compilation}

/-! ## 1. What is spread over rows -/

/-- A table has a value of the attribute in each row: its grouping names no other attribute. -/
structure IsSpread (schema : SchemaDecl) (groupings : List Grouping) (naming : Naming) (t : Table)
    (n : AttributeNode) : Prop where
  named : ∃ g nodes, groupings[t.grouping]? = some g ∧ g.Names schema.diagram nodes ∧
    nodes.filterMap Node.attr? = [n]
  multivalued : n.multivalued = true
  single : n.isComposite = false
  unkeyed : naming.isKeyName n.path = false

/-- **An item collects values** if it is the array of them wherever it reads a column with a value
in each row. -/
def CollectsValues (tables : List Table) (item : Sql.SelectItem) : Prop :=
  ∀ t column, Reads tables item t column → column.form = .normalized →
    item.expr = (Reconstruction.columnOf t column).arrayAgg

/-- **No part of an attribute is left as it is**: if the attribute is composite and has no column of
its own, none of its parts is spread over the rows of a table. -/
def HasGatheredParts (schema : SchemaDecl) (groupings : List Grouping) (naming : Naming)
    (tables : List Table) (a : Attribute) : Prop :=
  a.isComposite = true → (∀ t ∈ tables, ∀ column ∈ t.columns, column.name ≠ a.name) →
    ∀ t ∈ tables, ∀ n, IsSpread schema groupings naming t n → n.parent.isSome = true →
      Path.rootPart n.path ≠ a.name

/-- A column is not the array of its values. -/
theorem columnOf_ne_arrayAgg (t : Table) (column : Column) :
    Reconstruction.columnOf t column ≠ (Reconstruction.columnOf t column).arrayAgg := by
  simp [Reconstruction.columnOf, Sql.Expr.arrayAgg]

namespace Passes

variable (h : Passes schema groupings s c)

include h

/-- The column of a part that is spread: what it was split out of, and the part. -/
theorem exists_normalized_iff {t : Table} (ht : t ∈ c.schema.tables) (name : String) :
    (∃ column ∈ t.columns, column.flattenedFrom = some name ∧ column.form = .normalized) ↔
      ∃ n, IsSpread schema groupings s.naming t n ∧ n.parent.isSome = true ∧
        Path.rootPart n.path = name := by
  constructor
  · rintro ⟨column, hcolumn, hflat, hform⟩
    obtain ⟨g, nodes, n, hg, hnames, -, hkey, hof⟩ := h.exists_isColumnOf ht hcolumn
      (by rw [hform]; rfl)
    obtain ⟨hsingle, hmany, honly⟩ := hof.form_eq_normalized.mp hform
    obtain ⟨parent, hparent, hroot⟩ :=
      Option.map_eq_some_iff.mp (hof.flattenedFrom.symm.trans hflat)
    exact ⟨n, ⟨⟨g, nodes, hg, hnames, honly⟩, hmany, hsingle, hkey⟩, by rw [hparent]; rfl, hroot⟩
  · rintro ⟨n, ⟨⟨g, nodes, hg, hnames, honly⟩, hmany, hsingle, hkey⟩, hpart, hroot⟩
    obtain ⟨g', hg', htable⟩ := synthesize_of_mem h.tables ht
    obtain rfl := Option.some.inj (hg.symm.trans hg')
    have hn : .attr n ∈ nodes := Node.mem_filterMap_attr?.mp (honly ▸ List.mem_singleton_self n)
    obtain ⟨column, hcolumn, -, hof⟩ := htable.exists_column h.isIndexed hnames hn hkey
    obtain ⟨parent, hparent⟩ := Option.isSome_iff_exists.mp hpart
    refine ⟨column, hcolumn, ?_, hof.form_eq_normalized.mpr ⟨hsingle, hmany, honly⟩⟩
    rw [hof.flattenedFrom, hparent, Option.map_some, hroot]

/-! ## 2. Items -/

section

variable {tables : List Table} (htables : tables.Sublist c.schema.tables)

include htables

/-- The item for a column with the attribute's name collects its values. -/
theorem collectsValues_directItem {name : String} {t : Table} {column : Column} (ht : t ∈ tables)
    (hcolumn : column ∈ t.columns) : CollectsValues tables (directItem name t column) := by
  intro u x hreads hform
  have hown : Reads tables (directItem name t column) t column :=
    ⟨ht, hcolumn, Reconstruction.references_directItem _ _ _⟩
  obtain ⟨rfl, rfl⟩ := h.reads_unique htables hown hreads
  exact if_pos hform

/-- The item for a column that was split out of an attribute collects nothing. -/
theorem collectsValues_flattened_iff {t : Table} {column : Column} (ht : t ∈ tables)
    (hcolumn : column ∈ t.columns) (name : Option String) :
    CollectsValues tables ⟨Reconstruction.columnOf t column, name⟩ ↔ column.form ≠ .normalized := by
  have hown : Reads tables ⟨Reconstruction.columnOf t column, name⟩ t column :=
    ⟨ht, hcolumn, by simp [Reconstruction.columnOf, Sql.Expr.references]⟩
  constructor
  · intro hcollects hform
    exact columnOf_ne_arrayAgg t column (hcollects t column hown hform)
  · intro hform u x hreads hnormalized
    obtain ⟨rfl, rfl⟩ := h.reads_unique htables hown hreads
    exact absurd hnormalized hform

/-- **The items for an attribute collect values** unless one of them is spread and was split out of
the attribute, which has no column of its own. -/
theorem collectsValues_items_iff {node : String} {a : Attribute} {items : List Sql.SelectItem}
    (hitems : itemsFor node tables a = .ok items) :
    (∀ item ∈ items, CollectsValues tables item) ↔
      HasGatheredParts schema groupings s.naming tables a := by
  rw [HasGatheredParts, ← Reconstruction.direct?_eq_none]
  rcases Reconstruction.itemsFor_eq_ok.mp hitems with
    ⟨t, column, hdirect, rfl⟩ | ⟨hdirect, hcomposite, rfl, -⟩
  · obtain ⟨ht, hcolumn, -⟩ := Reconstruction.direct?_eq_some hdirect
    rw [List.forall_mem_singleton]
    exact iff_of_true (h.collectsValues_directItem htables ht hcolumn)
      fun _ hnone => nomatch hnone.symm.trans hdirect
  · constructor
    · intro hcollects _ _ t ht n hn hpart hroot
      obtain ⟨column, hcolumn, hflat, hform⟩ :=
        (h.exists_normalized_iff (htables.subset ht) a.name).mpr ⟨n, hn, hpart, hroot⟩
      have hitem := hcollects _ (Reconstruction.mem_flattenedItems.mpr
        ⟨t, ht, column, hcolumn, hflat, rfl⟩)
      exact (h.collectsValues_flattened_iff htables ht hcolumn _).mp hitem hform
    · intro hparts item hitem
      obtain ⟨t, ht, column, hcolumn, hflat, rfl⟩ := Reconstruction.mem_flattenedItems.mp hitem
      refine (h.collectsValues_flattened_iff htables ht hcolumn _).mpr fun hform => ?_
      obtain ⟨n, hn, hpart, hroot⟩ :=
        (h.exists_normalized_iff (htables.subset ht) a.name).mp ⟨column, hcolumn, hflat, hform⟩
      exact hparts hcomposite hdirect t ht n hn hpart hroot

end

end Passes

/-! ## 3. Queries -/

/-- **All items of a query collect the values that they read** exactly if no composite attribute of
the structure that has no column of its own has a part that is spread over the rows of one of the
tables. -/
theorem collectsValues_iff (h : ofDecl schema groupings s = .ok c) {node : String}
    {as : List Attribute} (hget : c.compiled.structures.get? (Text.lower node) = some as)
    {q : Sql.Query} (hq : c.compiled.queryFor c.schema node = .ok q) :
    (∀ item ∈ q.select,
      CollectsValues (c.compiled.ownership.tablesIn c.schema (Text.lower node)) item) ↔
      ∀ a ∈ as, HasGatheredParts schema groupings s.naming
        (c.compiled.ownership.tablesIn c.schema (Text.lower node)) a := by
  have hpasses := ofDecl_eq_ok.mp h
  obtain ⟨as', hget', hquery⟩ := hpasses.queryFor_eq_ok.mp hq
  obtain rfl := Option.some.inj (hget.symm.trans hget')
  obtain ⟨anchor, others, joins, parts, -, -, hparts, rfl⟩ := Reconstruction.query_eq_ok.mp hquery
  constructor
  · intro hcollects a ha
    obtain ⟨items, hmem, hok⟩ := exists_of_mem_left hparts ha
    refine (hpasses.collectsValues_items_iff List.filter_sublist hok).mp fun item hitem => ?_
    exact hcollects item (List.mem_flatten.mpr ⟨items, hmem, hitem⟩)
  · intro hnone item hitem
    obtain ⟨items, hmem, hitem⟩ := List.mem_flatten.mp hitem
    obtain ⟨a, ha, hok⟩ := exists_of_mem_right hparts hmem
    exact (hpasses.collectsValues_items_iff List.filter_sublist hok).mpr (hnone a ha) item hitem

/-- The phones of a person are spread over rows and collected, and the parts of a name are not
spread over any. -/
theorem collectsValues_iff_person : ∃ c as q,
    ofDecl .courses (Grouping.ofCourses.map .ofNames) .standard = .ok c ∧
    c.compiled.structures.get? (Text.lower "Person") = some as ∧
    c.compiled.queryFor c.schema "Person" = .ok q ∧
    (∀ item ∈ q.select,
      CollectsValues (c.compiled.ownership.tablesIn c.schema (Text.lower "Person")) item) ∧
    (q.select.map fun item => (item.label, item.expr.isAggregate)) =
      [(some "person_id", false), (some "name__first", false), (some "name__last", false),
        (some "phone", true)] := by
  have hrun : (ofDecl .courses (Grouping.ofCourses.map .ofNames) .standard).toOption.any (fun c =>
      decide (∀ t ∈ c.schema.tables, ∀ column ∈ t.columns, column.flattenedFrom.isSome = true →
        column.form ≠ .normalized) &&
      (c.compiled.queryFor c.schema "Person").toOption.any fun q =>
        decide ((q.select.map fun item => (item.label, item.expr.isAggregate)) =
          [(some "person_id", false), (some "name__first", false), (some "name__last", false),
            (some "phone", true)])) = true := by
    decide +kernel
  obtain ⟨c, hc, hrun⟩ := exists_of_any hrun
  obtain ⟨hforms, hquery⟩ := Bool.and_eq_true_iff.mp hrun
  obtain ⟨q, hq, hshown⟩ := exists_of_any hquery
  have hpasses := ofDecl_eq_ok.mp hc
  obtain ⟨as, hget, -⟩ := hpasses.queryFor_eq_ok.mp hq
  refine ⟨c, as, q, hc, hget, hq, (collectsValues_iff hc hget hq).mpr ?_, of_decide_eq_true hshown⟩
  intro a _ _ _ t ht n hn hpart hroot
  have hmem := List.mem_of_mem_filter ht
  obtain ⟨column, hcolumn, hflat, hform⟩ :=
    (hpasses.exists_normalized_iff hmem a.name).mpr ⟨n, hn, hpart, hroot⟩
  exact of_decide_eq_true hforms t hmem column hcolumn (by rw [hflat]; rfl) hform

end Compilation

/-! ## 4. An example -/

/-- Persons with a contact, which is a mail address and any number of phones. -/
def SchemaDecl.contacts : SchemaDecl where
  entities := [⟨"Person", .regular, none, [⟨"person_id", .integer, true, false, false, []⟩,
    ⟨"contact", .composite, false, false, false, [⟨"email", .varchar, false, false, false, []⟩,
      ⟨"phone", .varchar, false, false, true, []⟩]⟩]⟩]
  relationships := []

/-- Mail addresses and phones are stored apart. -/
def Grouping.ofContacts : List (List String) :=
  [["Person", "Person.contact.email"], ["Person", "Person.contact.phone"]]

/-- **A person comes once for every phone**: the phones have a row each, and the item that reads
them for the contact is their column and not the array of their values. -/
theorem Compilation.not_collectsValues_contacts : ∃ c q item t column,
    ofDecl .contacts (Grouping.ofContacts.map .ofNames) .standard = .ok c ∧
    c.compiled.queryFor c.schema "Person" = .ok q ∧ item ∈ q.select ∧
    Reads (c.compiled.ownership.tablesIn c.schema "person") item t column ∧
    column.source = "person.contact.phone" ∧ column.form = .normalized ∧
    item.expr = Reconstruction.columnOf t column ∧ q.groupBy = [] ∧
    ¬CollectsValues (c.compiled.ownership.tablesIn c.schema "person") item := by
  have hrun : (ofDecl .contacts (Grouping.ofContacts.map .ofNames) .standard).toOption.any
      (fun c => (c.compiled.queryFor c.schema "Person").toOption.any fun q =>
        q.select.any fun item => (c.compiled.ownership.tablesIn c.schema "person").any fun t =>
          t.columns.any fun column => decide (item.expr = Reconstruction.columnOf t column ∧
            column.source = "person.contact.phone" ∧ column.form = .normalized ∧
            q.groupBy = [])) = true := by
    decide +kernel
  obtain ⟨c, hc, hrun⟩ := exists_of_any hrun
  obtain ⟨q, hq, hrun⟩ := exists_of_any hrun
  obtain ⟨item, hitem, hrun⟩ := List.any_eq_true.mp hrun
  obtain ⟨t, ht, hrun⟩ := List.any_eq_true.mp hrun
  obtain ⟨column, hcolumn, hrun⟩ := List.any_eq_true.mp hrun
  obtain ⟨hexpr, hsource, hform, hgroup⟩ := of_decide_eq_true hrun
  have hreads : Reads (c.compiled.ownership.tablesIn c.schema "person") item t column :=
    ⟨ht, hcolumn, by rw [hexpr]; simp [Reconstruction.columnOf, Sql.Expr.references]⟩
  refine ⟨c, q, item, t, column, hc, hq, hitem, hreads, hsource, hform, hexpr, hgroup,
    fun hcollects => ?_⟩
  exact columnOf_ne_arrayAgg t column (hexpr.symm.trans (hcollects t column hreads hform))

end EntityLayout

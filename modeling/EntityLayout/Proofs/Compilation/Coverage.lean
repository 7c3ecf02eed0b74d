/-
# Which attributes have columns

An attribute that a grouping names has one column in its table, unless its name ends like that of a
key: a key column is taken to stand for it, whichever attribute it is.  So an attribute that merely
is called like a key, as the number of another person or of a country may be, is stored nowhere.

* `Table.columnsOf`: the columns that hold an attribute.
* `Compilation.columnsOf_named`: **an attribute that a grouping names has one column there if its
  name is not that of a key**, and else has none anywhere.
* `Compilation.not_stored_employees`: two attributes that are named and are not stored.
-/
import EntityLayout.Proofs.Compilation.Passes
import EntityLayout.Proofs.Tables.Shape

namespace EntityLayout

/-- The columns that hold the attribute of a path, keys apart. -/
def Table.columnsOf (t : Table) (path : String) : List Column :=
  t.columns.filter fun c => !c.form.isKey && decide (c.source = path)

theorem Table.mem_columnsOf {t : Table} {path : String} {c : Column} :
    c ∈ t.columnsOf path ↔ c ∈ t.columns ∧ c.form.isKey = false ∧ c.source = path := by
  simp [columnsOf, List.mem_filter]

/-- The table of a grouping is at its place. -/
theorem synthesize_getElem? {d : Diagram} {layout : Layout} {groupings : List Grouping}
    {naming : Naming} {s : PhysicalSchema} (h : synthesize d layout groupings naming = .ok s)
    {i : Nat} {g : Grouping} (hg : groupings[i]? = some g) : ∃ t, s.tables[i]? = some t ∧
      t.grouping = i ∧ Blueprint.IsTable ⟨d, layout, naming⟩ i g t := by
  have hplace : groupings.zipIdx[i]? = some (g, i) := by
    rw [List.getElem?_zipIdx, hg, Option.map_some, Nat.zero_add]
  have hrel := getElem?_rel (synthesize_tables h) i
  rw [hplace] at hrel
  generalize s.tables[i]? = found at hrel
  cases hrel with
  | @some _ t htable =>
    refine ⟨t, rfl, ?_, htable⟩
    obtain ⟨nodes, keys, -, -, rfl, -⟩ := htable
    rfl

namespace Compilation

variable {schema : SchemaDecl} {groupings : List Grouping} {s : Settings} {c : Compilation}

namespace Passes

variable (h : Passes schema groupings s c)

include h

/-- A column that is no key holds an attribute that the grouping of its table names. -/
theorem exists_isColumnOf {t : Table} (ht : t ∈ c.schema.tables) {column : Column}
    (hcolumn : column ∈ t.columns) (hkey : column.form.isKey = false) : ∃ g nodes a,
      groupings[t.grouping]? = some g ∧ g.Names schema.diagram nodes ∧ .attr a ∈ nodes ∧
        s.naming.isKeyName a.path = false ∧
          Blueprint.IsColumnOf ⟨schema.diagram, c.compiled.layout, s.naming⟩
            (nodes.filterMap Node.attr?) a column := by
  obtain ⟨g, hg, htable⟩ := synthesize_of_mem h.tables ht
  obtain ⟨nodes, a, hnames, ha, hname, hof⟩ := htable.exists_isColumnOf h.isIndexed hcolumn hkey
  exact ⟨g, nodes, a, hg, hnames, ha, hname, hof⟩

/-- No column holds an attribute with the name of a key. -/
theorem columnsOf_eq_nil {path : String} (hpath : s.naming.isKeyName path = true) {t : Table}
    (ht : t ∈ c.schema.tables) : t.columnsOf path = [] := by
  refine List.eq_nil_iff_forall_not_mem.mpr fun column hcolumn => ?_
  obtain ⟨hmem, hkey, hsource⟩ := Table.mem_columnsOf.mp hcolumn
  obtain ⟨g, nodes, a, -, -, -, hname, hof⟩ := h.exists_isColumnOf ht hmem hkey
  rw [← hof.source, hsource, hpath] at hname
  exact nomatch hname

/-- Two columns of a table that hold attributes of one path are the same. -/
theorem eq_of_source {t : Table} (ht : t ∈ c.schema.tables) {x y : Column} (hx : x ∈ t.columns)
    (hy : y ∈ t.columns) (hxkey : x.form.isKey = false) (hykey : y.form.isKey = false)
    (hsource : x.source = y.source) : x = y := by
  obtain ⟨_, _, a, _, _, _, _, hxof⟩ := h.exists_isColumnOf ht hx hxkey
  obtain ⟨_, _, b, _, _, _, _, hyof⟩ := h.exists_isColumnOf ht hy hykey
  refine List.inj_on_of_nodup_map (h.nodup_columns ht) hx hy ?_
  rw [hxof.name, hyof.name, ← hxof.source, ← hyof.source, hsource]

/-- A column is the only one that holds its attribute. -/
theorem columnsOf_source {t : Table} (ht : t ∈ c.schema.tables) {column : Column}
    (hcolumn : column ∈ t.columns) (hkey : column.form.isKey = false) :
    t.columnsOf column.source = [column] := by
  have hnodup : (t.columnsOf column.source).Nodup := (h.nodup_columns ht).of_map.filter _
  refine List.perm_singleton.mp ((List.perm_ext_iff_of_nodup hnodup
    (List.nodup_singleton column)).mpr fun x => ?_)
  rw [Table.mem_columnsOf, List.mem_singleton]
  constructor
  · rintro ⟨hx, hxkey, hsource⟩
    exact h.eq_of_source ht hx hcolumn hxkey hkey hsource
  · rintro rfl
    exact ⟨hcolumn, hkey, rfl⟩

/-- An attribute that a grouping names has its column there, if its name is not that of a key. -/
theorem exists_columnsOf {i : Nat} {g : Grouping} (hg : groupings[i]? = some g) {a : AttributeNode}
    (ha : .attr a ∈ schema.diagram.nodes) (hname : ∃ name ∈ g.names, Text.lower name = a.path)
    (hkey : s.naming.isKeyName a.path = false) : ∃ t column, c.schema.tables[i]? = some t ∧
      t.grouping = i ∧ t.columnsOf a.path = [column] := by
  obtain ⟨t, ht, hindex, htable⟩ := synthesize_getElem? h.tables hg
  obtain ⟨only, hcolumn⟩ := htable.columnOf_mem h.isIndexed ⟨ha, hkey, hname⟩
  exact ⟨t, _, ht, hindex, h.columnsOf_source (List.mem_of_getElem? ht) hcolumn
    (Blueprint.isKey_columnForm only a)⟩

end Passes

/-- **An attribute that a grouping names has one column in its table if its name is not that of a
key.**  Else it has no column in any table. -/
theorem columnsOf_named (h : ofDecl schema groupings s = .ok c) {i : Nat} {g : Grouping}
    (hg : groupings[i]? = some g) {a : AttributeNode} (ha : .attr a ∈ c.compiled.diagram.nodes)
    (hname : ∃ name ∈ g.names, Text.lower name = a.path) :
    (s.naming.isKeyName a.path = false → ∃ t column, c.schema.tables[i]? = some t ∧
      t.grouping = i ∧ t.columnsOf a.path = [column]) ∧
    (s.naming.isKeyName a.path = true → ∀ t ∈ c.schema.tables, t.columnsOf a.path = []) := by
  have hpasses := ofDecl_eq_ok.mp h
  rw [hpasses.diagram] at ha
  exact ⟨fun hkey => hpasses.exists_columnsOf hg ha hname hkey,
    fun hkey t ht => hpasses.columnsOf_eq_nil hkey ht⟩

end Compilation

/-- Persons with the number of their manager and a passport, which has that of a country. -/
def SchemaDecl.employees : SchemaDecl where
  entities := [⟨"Person", .regular, none, [⟨"person_id", .integer, true, false, false, []⟩,
    ⟨"name", .varchar, false, false, false, []⟩,
    ⟨"manager_id", .integer, false, false, false, []⟩,
    ⟨"passport", .composite, false, false, false, [⟨"number", .varchar, false, false, false, []⟩,
      ⟨"country_id", .integer, false, false, false, []⟩]⟩]⟩]
  relationships := []

/-- Everything that is known of a person but the key. -/
def Grouping.ofEmployees : Grouping := .ofNames ["Person", "Person.name", "Person.manager_id",
  "Person.passport.number", "Person.passport.country_id"]

namespace Compilation

/-- The number of a passport has a column, and that of a manager has none. -/
theorem columnsOf_named_employees : ∃ c number manager,
    ofDecl .employees [.ofEmployees] .standard = .ok c ∧
    (.attr number ∈ c.compiled.diagram.nodes ∧ number.path = "person.passport.number" ∧
      ∃ t column, c.schema.tables[0]? = some t ∧ t.grouping = 0 ∧
        t.columnsOf "person.passport.number" = [column]) ∧
    (.attr manager ∈ c.compiled.diagram.nodes ∧ manager.path = "person.manager_id" ∧
      ∀ t ∈ c.schema.tables, t.columnsOf "person.manager_id" = []) := by
  have hrun : (ofDecl .employees [.ofEmployees] .standard).toOption.any
      (fun c => (c.compiled.diagram.nodes.filterMap Node.attr?).any
          (fun a => decide (a.path = "person.passport.number")) &&
        (c.compiled.diagram.nodes.filterMap Node.attr?).any
          (fun a => decide (a.path = "person.manager_id"))) = true := by
    decide +kernel
  obtain ⟨c, hc, hrun⟩ := exists_of_any hrun
  obtain ⟨hnumbers, hmanagers⟩ := Bool.and_eq_true_iff.mp hrun
  obtain ⟨number, hnumber, hpath⟩ := List.any_eq_true.mp hnumbers
  obtain ⟨manager, hmanager, hpath'⟩ := List.any_eq_true.mp hmanagers
  have hnumber := Node.mem_filterMap_attr?.mp hnumber
  have hmanager := Node.mem_filterMap_attr?.mp hmanager
  have hpath := of_decide_eq_true hpath
  have hpath' := of_decide_eq_true hpath'
  have hg : [Grouping.ofEmployees][0]? = some .ofEmployees := rfl
  have hstored := (columnsOf_named hc hg hnumber ⟨"person.passport.number", by decide +kernel,
    by rw [hpath]; decide +kernel⟩).1 (by rw [hpath]; decide +kernel)
  have hdropped := (columnsOf_named hc hg hmanager ⟨"person.manager_id", by decide +kernel,
    by rw [hpath']; decide +kernel⟩).2 (by rw [hpath']; decide +kernel)
  exact ⟨c, number, manager, hc, ⟨hnumber, hpath, hpath ▸ hstored⟩,
    hmanager, hpath', hpath' ▸ hdropped⟩

/-- **Attributes that are named and are not stored**: the number of a manager and that of a country
end like a key, but neither is the key of a person.  No column of the table has one of them for its
source, and there is no query for persons. -/
theorem not_stored_employees : ∃ c t,
    ofDecl .employees [.ofEmployees] .standard = .ok c ∧ t ∈ c.schema.tables ∧ t.grouping = 0 ∧
    (∀ path ∈ ["person.manager_id", "person.passport.country_id"],
      (∃ a, .attr a ∈ c.compiled.diagram.nodes ∧ a.path = path ∧ a.primaryKey = false) ∧
      (∃ name ∈ Grouping.ofEmployees.names, Text.lower name = path) ∧
      (∃ own, c.compiled.diagram.topLevel "person" = .ok own ∧
        ∀ first ∈ own.head?, first.path ≠ path) ∧
      t.hasSource path = false) ∧
    c.compiled.queryFor c.schema "Person" = .error (.noColumn "person" "manager_id") := by
  have hrun : (ofDecl .employees [.ofEmployees] .standard).toOption.any (fun c =>
      decide (c.compiled.queryFor c.schema "Person" = .error (.noColumn "person" "manager_id")) &&
      c.schema.tables.any fun t => decide (t.grouping = 0) &&
        ["person.manager_id", "person.passport.country_id"].all fun path =>
          (c.compiled.diagram.nodes.filterMap Node.attr?).any
            (fun a => decide (a.path = path ∧ a.primaryKey = false)) &&
          (c.compiled.diagram.topLevel "person").toOption.any
            (fun own => decide (∀ first ∈ own.head?, first.path ≠ path)) &&
          decide ((∃ name ∈ Grouping.ofEmployees.names, Text.lower name = path) ∧
            t.hasSource path = false)) = true := by
    decide +kernel
  obtain ⟨c, hc, hrun⟩ := exists_of_any hrun
  obtain ⟨hquery, htables⟩ := Bool.and_eq_true_iff.mp hrun
  obtain ⟨t, ht, htable⟩ := List.any_eq_true.mp htables
  obtain ⟨hindex, hall⟩ := Bool.and_eq_true_iff.mp htable
  refine ⟨c, t, hc, ht, of_decide_eq_true hindex, fun path hpath => ?_, of_decide_eq_true hquery⟩
  have hat := List.all_eq_true.mp hall path hpath
  simp only [Bool.and_eq_true] at hat
  obtain ⟨⟨hnode, howner⟩, hmarks⟩ := hat
  obtain ⟨a, ha, hkey⟩ := List.any_eq_true.mp hnode
  obtain ⟨own, hown, hfirst⟩ := exists_of_any howner
  obtain ⟨hnamed, hsource⟩ := of_decide_eq_true hmarks
  exact ⟨⟨a, Node.mem_filterMap_attr?.mp ha, of_decide_eq_true hkey⟩, hnamed,
    ⟨own, hown, of_decide_eq_true hfirst⟩, hsource⟩

end Compilation

end EntityLayout

/-
# The shape of tables

What a table looks like can be read off its grouping: the keys come first, and behind them a column
for every attribute that is named and does not end like a key, in the order of the names.

* `Grouping.Names`: the nodes that a grouping names.
* `Blueprint.IsColumnOf`: what the column of an attribute is.
* `Blueprint.HasPairedKeys`: the keys where an entity is named twice.
* `Blueprint.HasShape`, `Blueprint.hasShape_of_table`: **every table that is made has the shape that
  its grouping asks for.**
-/
import EntityLayout.Proofs.Diagram.Consistency
import EntityLayout.Proofs.Tables.NameOrder

namespace EntityLayout

open Sql (SqlType)

/-! ## 1. Names -/

namespace Grouping

variable {g : Grouping} {d : Diagram} {nodes : List Node}

/-- The nodes that a grouping names, name by name. -/
def Names (g : Grouping) (d : Diagram) (nodes : List Node) : Prop :=
  List.Forall₂ (fun name n => n ∈ d.nodes ∧ n.path = Text.lower name) g.names nodes

/-- The nodes of a grouping are looked up one by one. -/
theorem names_iff (hd : d.IsIndexed) : g.Names d nodes ↔ g.names.mapM d.nodeAt = .ok nodes := by
  rw [mapM_eq_ok]
  simp only [hd.nodeAt_eq_ok]
  rfl

end Grouping

namespace Blueprint

variable {b : Blueprint} {index : Nat} {g : Grouping} {nodes : List Node} {keys : List Column}
  {types types' : TypeRegister} {t : Table}

/-! ## 2. Columns of attributes -/

/-- The attributes among some nodes that are not called like keys. -/
def unkeyed (b : Blueprint) (nodes : List Node) : List AttributeNode :=
  (nodes.filterMap Node.attr?).filter fun a => !b.naming.isKeyName a.path

theorem mem_unkeyed {a : AttributeNode} :
    a ∈ b.unkeyed nodes ↔ .attr a ∈ nodes ∧ b.naming.isKeyName a.path = false := by
  rw [unkeyed, List.mem_filter, Node.mem_filterMap_attr?, Bool.not_eq_true']

/-- What the column of an attribute is, in the table of a grouping that names some attributes.  A
multivalued attribute is spread over rows where it is the only one. -/
structure IsColumnOf (b : Blueprint) (named : List AttributeNode) (a : AttributeNode)
    (c : Column) : Prop where
  name : c.name = Naming.columnName (Path.localPart a.path)
  source : c.source = a.path
  flattenedFrom : c.flattenedFrom = a.parent.map fun _ => Path.rootPart a.path
  composite : a.isComposite = true →
    c.form = .composite ∧ c.type = .composite (b.naming.typeName a.path)
  normalized : a.isComposite = false → a.multivalued = true → named = [a] →
    c.form = .normalized ∧ c.type = .ofAttributeType a.type
  array : a.isComposite = false → a.multivalued = true → named ≠ [a] →
    c.form = .array ∧ c.type = (SqlType.ofAttributeType a.type).array
  value : a.isComposite = false → a.multivalued = false →
    c.form = .value ∧ c.type = .ofAttributeType a.type

/-- A column has a value of a multivalued attribute in each row exactly if the attribute is the only
one, and not composite. -/
theorem IsColumnOf.form_eq_normalized {named : List AttributeNode} {a : AttributeNode} {c : Column}
    (h : b.IsColumnOf named a c) : c.form = .normalized ↔
      a.isComposite = false ∧ a.multivalued = true ∧ named = [a] := by
  refine ⟨fun hform => ?_, fun ⟨hsingle, hmany, honly⟩ => (h.normalized hsingle hmany honly).1⟩
  have hcomposite : a.isComposite = false := Bool.eq_false_iff.mpr fun hcomposite =>
    nomatch hform.symm.trans (h.composite hcomposite).1
  have hmany : a.multivalued = true := Bool.of_not_eq_false fun hone =>
    nomatch hform.symm.trans (h.value hcomposite hone).1
  refine ⟨hcomposite, hmany, Decidable.byContradiction fun hothers => ?_⟩
  exact nomatch hform.symm.trans (h.array hcomposite hmany hothers).1

/-- An attribute is alone among some nodes if it is the only attribute of them. -/
theorem isOnly_iff {a : AttributeNode} (ha : .attr a ∈ nodes) :
    isOnly nodes = true ↔ nodes.filterMap Node.attr? = [a] := by
  have hmem := Node.mem_filterMap_attr?.mpr ha
  rw [isOnly, decide_eq_true_iff, List.length_eq_one_iff]
  constructor
  · rintro ⟨x, hx⟩
    rw [hx, List.mem_singleton] at hmem
    rw [hx, hmem]
  · exact fun h => ⟨a, h⟩

theorem isColumnOf_columnOf {a : AttributeNode} (ha : .attr a ∈ nodes) :
    b.IsColumnOf (nodes.filterMap Node.attr?) a (b.columnOf (isOnly nodes) a) where
  name := rfl
  source := rfl
  flattenedFrom := rfl
  composite := fun hcomposite => by simp [columnOf, columnForm, columnType, hcomposite]
  normalized := fun hcomposite hmany hone => by
    have honly := (isOnly_iff ha).mpr hone
    simp [columnOf, columnForm, columnType, hcomposite, hmany, honly]
  array := fun hcomposite hmany hothers => by
    have honly : isOnly nodes = false :=
      Bool.eq_false_iff.mpr fun h => hothers ((isOnly_iff ha).mp h)
    simp [columnOf, columnForm, columnType, hcomposite, hmany, honly]
  value := fun hcomposite hmany => by simp [columnOf, columnForm, columnType, hcomposite, hmany]

/-! ## 3. Keys -/

/-- The keys of the two sides of a relationship, called after the roles or, where there are none,
after the entities. -/
def pairedKeys (naming : Naming) (r : RelationshipNode) : List Column :=
  match r.roles with
  | some (role₁, role₂) =>
    [.key (naming.roleKeyColumn role₁) r.first, .key (naming.roleKeyColumn role₂) r.second]
  | none => [.key (naming.keyColumn r.first) r.first, .key (naming.keyColumn r.second) r.second]

/-- The keys of the two sides are called as they are in the structure of the relationship. -/
theorem pairedKeys_eq {naming : Naming} {r : RelationshipNode} {e₁ e₂ : EntityNode}
    (hfirst : e₁.path = r.first) (hsecond : e₂.path = r.second) : pairedKeys naming r =
      [.key (Structures.sideNames naming r e₁ e₂).1 e₁.path,
        .key (Structures.sideNames naming r e₁ e₂).2 e₂.path] := by
  rw [pairedKeys, Structures.sideNames, hfirst, hsecond]
  cases r.roles with
  | none => rfl
  | some roles => rfl

/-- The keys where a name is repeated: it is that of an entity and comes twice, and the keys are
those of the two sides of the first relationship that is named. -/
structure HasPairedKeys (b : Blueprint) (g : Grouping) (nodes : List Node) (name : String)
    (r : RelationshipNode) (keys : List Column) : Prop where
  entity : ∃ e, .entity e ∈ nodes ∧ e.path = Text.lower name
  twice : g.names.count name = 2
  once : ∀ other ∈ g.names, other ≠ name → g.names.count other = 1
  first : (nodes.filterMap Node.relationship?).head? = some r
  strong : ∃ e₁ e₂, .entity e₁ ∈ b.diagram.nodes ∧ .entity e₂ ∈ b.diagram.nodes ∧
    e₁.path = r.first ∧ e₂.path = r.second ∧ e₁.kind ≠ .weak ∧ e₂.kind ≠ .weak
  distinct : r.roles = none → r.first ≠ r.second
  keys : keys = pairedKeys b.naming r

/-- Keys of two sides are made only where the name is that of an entity. -/
theorem exists_entity_of_sideKeys {name : String} (h : b.sideKeys index name nodes = .ok keys) :
    ∃ e, b.diagram.nodeAt name = .ok (.entity e) := by
  obtain ⟨n, hn, h⟩ := bind_eq_ok.mp h
  cases n with
  | entity e => exact ⟨e, mapError_eq_ok.mp hn⟩
  | relationship r => exact absurd h throw_ne_ok
  | attr a => exact absurd h throw_ne_ok

/-- Keys with two names belong to two entities, unless they are called after roles. -/
theorem first_ne_second_of_nodup {naming : Naming} {r : RelationshipNode}
    (h : ((pairedKeys naming r).map Column.name).Nodup) (hroles : r.roles = none) :
    r.first ≠ r.second := by
  intro hsame
  rw [pairedKeys, hroles, hsame] at h
  simp at h

/-- **Where a name is repeated, the keys are those of two sides.** -/
theorem hasPairedKeys_of_sideKeys {schema : SchemaDecl} {layout : Layout} {naming : Naming}
    (hw : schema.IsWellFormed) {name : String}
    (hnodes : nodesOf ⟨schema.diagram, layout, naming⟩ g = .ok nodes)
    (hname : repeatedName index g = .ok (some name))
    (hsides : sideKeys ⟨schema.diagram, layout, naming⟩ index name nodes = .ok keys)
    (hnodup : (keys.map Column.name).Nodup) :
    ∃ r, HasPairedKeys ⟨schema.diagram, layout, naming⟩ g nodes name r keys := by
  obtain ⟨hrepeated, htimes⟩ := repeatedName_eq_some.mp hname
  obtain ⟨htwice, honce⟩ := Grouping.count_of_repeated hrepeated htimes
  obtain ⟨e, he⟩ := exists_entity_of_sideKeys hsides
  obtain ⟨hmem, hpath⟩ := hw.isIndexed.nodeAt_eq_ok.mp he
  have hin : name ∈ g.names := List.count_pos_iff.mp (by omega)
  obtain ⟨r, e₁, e₂, hr, hends, hweak, hkeys⟩ := sideKeys_eq_ok hsides
  have hrmem := relationship_mem_of_findSome? hw.isIndexed hnodes hr
  obtain ⟨decl, hdecl, rfl⟩ := SchemaDecl.relationship_mem_nodes_iff.mp hrmem
  obtain ⟨d₁, hd₁, d₂, hd₂, hends', hfirst, hsecond⟩ := hw.exists_ends hdecl
  obtain ⟨rfl, rfl⟩ := Prod.mk.inj (Except.ok.inj (hends'.symm.trans hends))
  have hpaired : keys = pairedKeys naming decl.node :=
    Eq.trans hkeys (Eq.symm (pairedKeys_eq hfirst hsecond))
  refine ⟨decl.node, ⟨⟨e, ?_, hpath⟩, htwice, honce, ?_, ?_, ?_, hpaired⟩⟩
  · exact (mem_nodes_iff hw.isIndexed hnodes).mpr ⟨hmem, name, hin, hpath.symm⟩
  · rw [List.head?_filterMap, hr]
  · obtain ⟨hstrong₁, hstrong₂⟩ := Bool.or_eq_false_iff.mp hweak
    exact ⟨d₁.node, d₂.node, SchemaDecl.entity_mem_nodes hd₁, SchemaDecl.entity_mem_nodes hd₂,
      hfirst, hsecond, of_decide_eq_false hstrong₁, of_decide_eq_false hstrong₂⟩
  · exact first_ne_second_of_nodup (hpaired ▸ hnodup)

/-! ## 4. Tables -/

/-- The shape of the table of a grouping: keys, and behind them the columns of the attributes that
are named and are not called like keys. -/
structure HasShape (b : Blueprint) (index : Nat) (g : Grouping) (t : Table) (nodes : List Node)
    (keys others : List Column) : Prop where
  named : g.Names b.diagram nodes
  table : t = ⟨b.naming.tableName index, index, keys ++ others⟩
  keysAreKeys : ∀ c ∈ keys, c.form.isKey = true
  othersAreNot : ∀ c ∈ others, c.form.isKey = false
  nodup : (t.columns.map Column.name).Nodup
  attributes : List.Forall₂ (b.IsColumnOf (nodes.filterMap Node.attr?)) (b.unkeyed nodes) others
  once : (b.unkeyed nodes).Nodup
  entities : g.names.Nodup → keys = b.keyColumns nodes
  paired : ¬g.names.Nodup → ∃ name r, b.HasPairedKeys g nodes name r keys

/-- The columns of attributes are those that they ask for, one by one. -/
theorem isColumnOf_attributeColumns : List.Forall₂ (b.IsColumnOf (nodes.filterMap Node.attr?))
    (b.unkeyed nodes) (b.attributeColumns (isOnly nodes) nodes) := by
  rw [attributeColumns, List.forall₂_map_right_iff, ← unkeyed, List.forall₂_same]
  intro a ha
  exact isColumnOf_columnOf (mem_unkeyed.mp ha).1

/-- Attributes whose columns have different names are different. -/
theorem nodup_of_attributeColumns {only : Bool}
    (h : ((b.attributeColumns only nodes).map Column.name).Nodup) : (b.unkeyed nodes).Nodup := by
  rw [attributeColumns, List.map_map] at h
  exact h.of_map

namespace IsTable

variable (h : b.IsTable index g t)

include h

/-- A column that is no key is that of an attribute that the grouping names. -/
theorem exists_isColumnOf (hd : b.diagram.IsIndexed) {c : Column} (hc : c ∈ t.columns)
    (hkey : c.form.isKey = false) : ∃ nodes a, g.Names b.diagram nodes ∧ .attr a ∈ nodes ∧
      b.naming.isKeyName a.path = false ∧ b.IsColumnOf (nodes.filterMap Node.attr?) a c := by
  obtain ⟨nodes, keys, hnodes, hkeys, rfl, -⟩ := h
  rcases List.mem_append.mp hc with hc | hc
  · obtain ⟨stem, entity, rfl⟩ := hkeys.isKeyColumn c hc
    exact nomatch hkey
  · obtain ⟨a, ha, hcolumn⟩ := exists_of_mem_right isColumnOf_attributeColumns hc
    obtain ⟨hmem, hname⟩ := mem_unkeyed.mp ha
    exact ⟨nodes, a, (Grouping.names_iff hd).mpr hnodes, hmem, hname, hcolumn⟩

/-- An attribute that the grouping names has a column if its name is not that of a key. -/
theorem exists_column (hd : b.diagram.IsIndexed) {a : AttributeNode}
    (hnames : g.Names b.diagram nodes) (ha : .attr a ∈ nodes)
    (hkey : b.naming.isKeyName a.path = false) :
    ∃ c ∈ t.columns, c.form.isKey = false ∧ b.IsColumnOf (nodes.filterMap Node.attr?) a c := by
  obtain ⟨nodes', keys, hnodes, -, rfl, -⟩ := h
  obtain rfl := Except.ok.inj (hnodes.symm.trans ((Grouping.names_iff hd).mp hnames))
  have hstored : a ∈ b.unkeyed nodes' := mem_unkeyed.mpr ⟨ha, hkey⟩
  exact ⟨_, List.mem_append_right _ (List.mem_map_of_mem hstored), isKey_columnForm _ a,
    isColumnOf_columnOf ha⟩

end IsTable

/-- A table is made only if at most one name is repeated, and no more than twice. -/
theorem repeatedName_of_table (h : b.table index g types = .ok (t, types')) :
    ∃ repeated, repeatedName index g = .ok repeated := by
  obtain ⟨nodes, -, h⟩ := bind_eq_ok.mp h
  obtain ⟨repeated, hrepeated, -⟩ := bind_eq_ok.mp h
  exact ⟨repeated, hrepeated⟩

/-- **Every table that is made has the shape that its grouping asks for.** -/
theorem hasShape_of_table {schema : SchemaDecl} {d : Diagram} (hd : Diagram.ofDecl schema = .ok d)
    {layout : Layout} {naming : Naming}
    (h : table ⟨d, layout, naming⟩ index g types = .ok (t, types')) :
    ∃ nodes keys others, HasShape ⟨d, layout, naming⟩ index g t nodes keys others := by
  obtain ⟨hw, rfl⟩ := Diagram.ofDecl_eq_ok.mp hd
  obtain ⟨repeated, hrepeated⟩ := repeatedName_of_table h
  obtain ⟨nodes, keys, hnodes, hkeys, rfl, hnodup⟩ := (table_eq_ok h).1
  have hcolumns : ((keys ++ attributeColumns ⟨schema.diagram, layout, naming⟩ (isOnly nodes)
      nodes).map Column.name).Nodup := hnodup
  rw [List.map_append] at hcolumns
  refine ⟨nodes, keys, _, (Grouping.names_iff hw.isIndexed).mpr hnodes, rfl, ?keys, ?others,
    hnodup, isColumnOf_attributeColumns, nodup_of_attributeColumns hcolumns.of_append_right,
    ?entities, ?paired⟩
  case keys =>
    intro c hc
    obtain ⟨stem, entity, rfl⟩ := hkeys.isKeyColumn c hc
    rfl
  case others =>
    intro c hc
    obtain ⟨a, -, rfl⟩ := List.mem_map.mp hc
    exact isKey_columnForm _ a
  case entities =>
    intro hnames
    cases hkeys with
    | entities => rfl
    | sides hname => exact nomatch (Grouping.repeated_eq_nil.mpr hnames).symm.trans hname
  case paired =>
    intro hnames
    cases hkeys with
    | entities hnone => exact absurd (Grouping.repeated_eq_nil.mp hnone) hnames
    | @sides name keys hname hsides =>
      have hsome : repeated = some name :=
        Option.toList_eq_singleton_iff.mp ((repeatedName_eq_ok hrepeated).symm.trans hname)
      exact ⟨name, hasPairedKeys_of_sideKeys hw hnodes (hsome ▸ hrepeated) hsides
        hcolumns.of_append_left⟩

end Blueprint

/-! ## 5. An example -/

/-- Persons with any number of nicknames, some of them members, who visit each other. -/
def SchemaDecl.visits : SchemaDecl where
  entities := [
    ⟨"Person", .regular, none, [⟨"person_id", .integer, true, false, false, []⟩,
      ⟨"nickname", .varchar, false, false, true, []⟩]⟩,
    ⟨"Member", .subclass, some "Person", [⟨"number", .integer, false, false, false, []⟩]⟩]
  relationships := [⟨"Visits", ⟨"Person", some "host"⟩, ⟨"Person", some "guest"⟩,
    [⟨"gift", .varchar, false, false, true, []⟩, ⟨"day", .integer, false, false, false, []⟩]⟩]

namespace Blueprint

/-- Nicknames are spread over rows, and members stand alone; gifts are kept in arrays, and a visit
has the keys of its two sides. -/
theorem hasShape_of_table_visits : ∃ d layout nicknames visits types types',
    Diagram.ofDecl .visits = .ok d ∧
    table ⟨d, layout, .standard⟩ 0 (.ofNames ["Person", "Person.nickname", "Member"]) .empty =
      .ok (nicknames, types) ∧
    table ⟨d, layout, .standard⟩ 1 (.ofNames ["Person", "Visits", "Visits.gift", "Person",
      "Visits.day"]) types = .ok (visits, types') ∧
    (∃ nodes keys others, HasShape ⟨d, layout, .standard⟩ 0
      (.ofNames ["Person", "Person.nickname", "Member"]) nicknames nodes keys others) ∧
    (∃ nodes keys others, HasShape ⟨d, layout, .standard⟩ 1
      (.ofNames ["Person", "Visits", "Visits.gift", "Person", "Visits.day"]) visits nodes keys
        others) ∧
    nicknames.columns.map Column.form = [.key "member", .key "person", .normalized] ∧
    visits.columns.map Column.name = ["host_id", "guest_id", "gift", "day"] ∧
    (visits.columns.drop 2).map Column.form = [.array, .value] := by
  have hrun : (SynthesisError.ofDiagram (Diagram.ofDecl .visits) >>= fun d => do
      let b : Blueprint := ⟨d, Register.empty.insert "member" (.subclass .alone none), .standard⟩
      let first ← b.table 0 (.ofNames ["Person", "Person.nickname", "Member"]) .empty
      let second ← b.table 1 (.ofNames ["Person", "Visits", "Visits.gift", "Person", "Visits.day"])
        first.2
      pure (first.1, second.1)).toOption.any (fun ts => decide (
        ts.1.columns.map Column.form = [.key "member", .key "person", .normalized] ∧
        ts.2.columns.map Column.name = ["host_id", "guest_id", "gift", "day"] ∧
        (ts.2.columns.drop 2).map Column.form = [.array, .value])) = true := by
    decide +kernel
  obtain ⟨⟨nicknames, visits⟩, hrun, hshown⟩ := exists_of_any hrun
  obtain ⟨hforms, hnames, hothers⟩ := of_decide_eq_true hshown
  obtain ⟨d, hd, hrun⟩ := bind_eq_ok.mp hrun
  obtain ⟨⟨first, types⟩, hfirst, hrun⟩ := bind_eq_ok.mp hrun
  obtain ⟨⟨second, types'⟩, hsecond, hrun⟩ := bind_eq_ok.mp hrun
  obtain ⟨rfl, rfl⟩ := pure_mk_eq_ok.mp hrun
  have hd := mapError_eq_ok.mp hd
  exact ⟨d, _, nicknames, visits, types, types', hd, hfirst, hsecond, hasShape_of_table hd hfirst,
    hasShape_of_table hd hsecond, hforms, hnames, hothers⟩

end Blueprint

end EntityLayout

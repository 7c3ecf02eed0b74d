/-
# The passes of a compilation

A compilation succeeds iff each of its passes does, with the results of those before it.

* `Compilation.Passes`: what the passes result in.
* `Compilation.ofDecl_eq_ok`, `Compilation.ofTexts_eq_ok`: **a compilation is its passes.**
* `Passes.mem_tablesIn_entity`, `Passes.structure_declared`: what is derived for a declaration.
* `Passes.queryFor_eq_ok`: the query for a node, by what was derived for it.
-/
import EntityLayout.Compilation
import EntityLayout.Proofs.Diagram.Declared
import EntityLayout.Proofs.Ownership
import EntityLayout.Proofs.Placement
import EntityLayout.Proofs.Structure
import EntityLayout.Proofs.Tables.Synthesis

namespace EntityLayout

/-! ## 1. Where declarations stand -/

namespace SchemaDecl

variable {schema : SchemaDecl}

/-- The node of an entity stands behind that of its parent. -/
theorem IsWellFormed.exists_split (h : schema.IsWellFormed) {e : EntityDecl}
    (he : e ∈ schema.entities) : ∃ before after,
      schema.diagram.nodes = before ++ .entity e.node :: after ∧
        ∀ p ∈ e.node.parent, ∃ q, .entity q ∈ before ∧ q.path = p := by
  obtain ⟨front, back, hsplit⟩ := List.append_of_mem he
  refine ⟨front.flatMap EntityDecl.nodes, e.attributeNodes.map Node.attr ++
    back.flatMap EntityDecl.nodes ++ schema.relationships.flatMap RelationshipDecl.nodes, ?_, ?_⟩
  · simp [diagram, hsplit, EntityDecl.nodes]
  · intro p hp
    obtain ⟨q, hq, hpath⟩ := h.parents front e back hsplit (EntityDecl.kind_ne_regular hp)
    refine ⟨q.node, List.mem_flatMap.mpr ⟨q, hq, List.mem_cons_self⟩, ?_⟩
    exact Option.some.inj (hpath.symm.trans hp)

/-- Once there is a layout, weak entities, subclasses and their parents have attributes. -/
theorem IsWellFormed.attributes_ne_nil (h : schema.IsWellFormed) {groupings : List Grouping}
    {layout : Layout} (hlayout : schema.diagram.classify groupings = .ok layout) {e p : EntityDecl}
    (he : e ∈ schema.entities) (hp : p ∈ schema.entities) (hparent : e.node.parent = some p.path) :
    e.attributes ≠ [] ∧ p.attributes ≠ [] := by
  have hdecision := Diagram.classify_entity hlayout h.isIndexed (entity_mem_nodes he)
  obtain ⟨made, hmade⟩ := Diagram.exists_decision hdecision (EntityDecl.kind_ne_regular hparent)
  rw [hmade] at hdecision
  obtain ⟨hown, habove⟩ := Diagram.attributes_ne_nil_of_decision h.isIndexed hdecision
    (entity_mem_nodes he) (entity_mem_nodes hp) hparent
  exact ⟨fun hnil => hown (EntityDecl.attributes_node_eq_nil hnil),
    fun hnil => habove (EntityDecl.attributes_node_eq_nil hnil)⟩

/-- The structure of an entity is made of what it inherits and its own attributes. -/
theorem IsWellFormed.structure_entity (h : schema.IsWellFormed) {layout : Layout} {naming : Naming}
    {structures : Structures} (hderive : Structures.derive schema.diagram layout naming =
      .ok structures) {e : EntityDecl} (he : e ∈ schema.entities) : ∃ inherited,
    Structures.Inherits layout structures e.node inherited ∧
      structures.get? e.path = some (Structures.withInherited layout naming e.node inherited
        (e.attributes.map Attribute.logical)) := by
  obtain ⟨inherited, own, hinherits, hown, hget⟩ :=
    Structures.derive_entity hderive h.isIndexed (entity_mem_nodes he)
  obtain rfl : own = e.attributes.map Attribute.logical :=
    Except.ok.inj (hown.symm.trans (h.own_entity he))
  exact ⟨inherited, hinherits, hget⟩

end SchemaDecl

/-- A grouping qualifies for an entity if it holds the entity, its parent and one of its attributes
or of their parts. -/
def EntityDecl.Qualifies (e : EntityDecl) (g : Grouping) : Prop :=
  g.contains e.path = true ∧ (∃ parent ∈ e.parentPath, g.contains parent = true) ∧
    ∃ a ∈ e.attributeNodes, g.contains a.path = true

instance (e : EntityDecl) (g : Grouping) : Decidable (e.Qualifies g) :=
  inferInstanceAs (Decidable (_ ∧ _ ∧ _))

/-- The groupings that qualify for a declaration are those that qualify for its node. -/
theorem SchemaDecl.IsWellFormed.qualifies_iff {schema : SchemaDecl} (h : schema.IsWellFormed)
    {e : EntityDecl} (he : e ∈ schema.entities) {parent : String}
    (hparent : e.parentPath = some parent) {own : List AttributeNode}
    (hown : schema.diagram.attributesOf e.path = .ok own) (g : Grouping) :
    Diagram.qualifies e.path parent own g = true ↔ e.Qualifies g := by
  obtain rfl := h.eq_attributeNodes_of_attributesOf he hown
  simp [Diagram.qualifies, EntityDecl.Qualifies, hparent, and_assoc]

/-! ## 2. Passes -/

namespace Compilation

/-- What the passes of a compilation result in, each by the results of those before it. -/
structure Passes (schema : SchemaDecl) (groupings : List Grouping) (s : Settings)
    (c : Compilation) : Prop where
  wellFormed : schema.IsWellFormed
  diagram : c.compiled.diagram = schema.diagram
  layout : schema.diagram.classify groupings = .ok c.compiled.layout
  tables : synthesize schema.diagram c.compiled.layout groupings s.naming = .ok c.schema
  ownership : Ownership.resolve schema.diagram c.compiled.layout groupings c.schema =
    .ok c.compiled.ownership
  structures : Structures.derive schema.diagram c.compiled.layout s.naming =
    .ok c.compiled.structures
  settings : c.dialect = s.dialect ∧ c.validate = s.validate

variable {schema : SchemaDecl} {groupings : List Grouping} {s : Settings} {c : Compilation}

/-- **A compilation of declarations is its passes.** -/
theorem ofDecl_eq_ok : ofDecl schema groupings s = .ok c ↔ Passes schema groupings s c := by
  simp only [ofDecl, bind_eq_ok, mapError_eq_ok, pure_eq_ok]
  constructor
  · rintro ⟨d, hd, layout, hlayout, tables, htables, ownership, hownership, structures,
      hstructures, rfl⟩
    obtain ⟨hwf, rfl⟩ := Diagram.ofDecl_eq_ok.mp hd
    exact ⟨hwf, rfl, hlayout, htables, hownership, hstructures, rfl, rfl⟩
  · intro h
    obtain ⟨⟨d, layout, ownership, structures⟩, tables, dialect, validate⟩ := c
    obtain ⟨hwf, rfl, hlayout, htables, hownership, hstructures, rfl, rfl⟩ := h
    exact ⟨_, Diagram.ofDecl_eq_ok.mpr ⟨hwf, rfl⟩, layout, hlayout, tables, htables, ownership,
      hownership, structures, hstructures, rfl⟩

/-- **A compilation of texts is that of the declarations read from them.** -/
theorem ofTexts_eq_ok {schemaText groupingsText : String} :
    ofTexts schemaText groupingsText s = .ok c ↔ ∃ schema groupings,
      Json.readText SchemaDecl.reader schemaText = .ok schema ∧
        Json.readText Grouping.listReader groupingsText = .ok groupings ∧
          Passes schema groupings s c := by
  simp only [ofTexts, bind_eq_ok, mapError_eq_ok, ofDecl_eq_ok]
  constructor
  · rintro ⟨schema, hschema, groupings, hgroupings, h⟩
    exact ⟨schema, groupings, hschema, hgroupings, h⟩
  · rintro ⟨schema, groupings, hschema, hgroupings, h⟩
    exact ⟨schema, hschema, groupings, hgroupings, h⟩

namespace Passes

variable (h : Passes schema groupings s c)

include h

theorem isIndexed : schema.diagram.IsIndexed := h.wellFormed.isIndexed

/-! ## 3. What is derived for a declaration -/

/-- The tables of an entity are those it owns directly and those it has from its parent. -/
theorem tablesOf_entity {e : EntityDecl} (he : e ∈ schema.entities) :
    c.compiled.ownership.tablesOf e.path =
      Ownership.entityTables c.compiled.layout groupings c.schema.tables c.compiled.ownership
        e.node := by
  obtain ⟨before, after, hsplit, hparent⟩ := h.wellFormed.exists_split he
  have hget := Ownership.resolve_entity h.ownership h.isIndexed hsplit hparent
  rw [Ownership.tablesOf, ← e.path_node, hget, Option.getD_some]

/-- **The tables of an entity** hold it and one of its attributes, or come from its parent. -/
theorem mem_tablesIn_entity {e : EntityDecl} (he : e ∈ schema.entities) {t : Table} :
    t ∈ c.compiled.ownership.tablesIn c.schema e.path ↔ t ∈ c.schema.tables ∧
      (Ownership.ownsDirectly groupings e.node t = true ∨
        t.name ∈ Ownership.inherited c.compiled.layout c.compiled.ownership e.node) := by
  rw [Ownership.mem_tablesIn, h.tablesOf_entity he]
  refine and_congr_right fun ht => ?_
  rw [Ownership.entityTables, List.mem_map]
  constructor
  · rintro ⟨u, hu, hname⟩
    obtain ⟨hu, howns⟩ := List.mem_filter.mp hu
    rw [List.inj_on_of_nodup_map (synthesize_nodup h.tables) hu ht hname] at howns
    simpa using howns
  · exact fun howns => ⟨t, List.mem_filter.mpr ⟨ht, by simpa using howns⟩, rfl⟩

/-- The table of a relationship is that of the one grouping that names it. -/
theorem exists_tablesOf_relationship {r : RelationshipDecl} (hr : r ∈ schema.relationships) :
    ∃ t ∈ c.schema.tables, c.compiled.ownership.tablesOf r.path = [t.name] ∧
      ∀ i g, groupings[i]? = some g → (g.contains r.path = true ↔ i = t.grouping) := by
  obtain ⟨name, hget, hfilter⟩ := Ownership.resolve_relationship h.ownership h.isIndexed
    (SchemaDecl.relationship_mem_nodes hr)
  obtain ⟨t, hsingle, rfl⟩ := List.map_eq_singleton_iff.mp hfilter
  rw [RelationshipDecl.path_node] at hsingle hget
  have hmem : ∀ u, u ∈ c.schema.tables ∧ Ownership.groupingNames groupings u r.path = true ↔
      u = t := by
    intro u
    rw [← List.mem_singleton (b := t), ← hsingle, List.mem_filter]
  obtain ⟨ht, hnames⟩ := (hmem t).mpr rfl
  refine ⟨t, ht, by rw [Ownership.tablesOf, hget]; rfl, ?_⟩
  intro i g hg
  constructor
  · intro hcontains
    obtain ⟨u, hu, rfl, -⟩ := synthesize_of_getElem? h.tables hg
    rw [(hmem u).mp ⟨hu, by rw [Ownership.groupingNames, hg]; exact hcontains⟩]
  · rintro rfl
    rw [Ownership.groupingNames, hg] at hnames
    exact hnames

/-- Every grouping has its table. -/
theorem exists_table {g : Grouping} (hg : g ∈ groupings) : ∃ t ∈ c.schema.tables,
    groupings[t.grouping]? = some g ∧
      Blueprint.IsTable ⟨schema.diagram, c.compiled.layout, s.naming⟩ t.grouping g t := by
  obtain ⟨i, hi⟩ := List.getElem?_of_mem hg
  obtain ⟨t, ht, rfl, htable⟩ := synthesize_of_getElem? h.tables hi
  exact ⟨t, ht, hi, htable⟩

/-- No two columns of a table share a name. -/
theorem nodup_columns {t : Table} (ht : t ∈ c.schema.tables) :
    (t.columns.map Column.name).Nodup := by
  obtain ⟨g, -, nodes, keys, -, -, -, hnodup⟩ := synthesize_of_mem h.tables ht
  exact hnodup

theorem structure_entity {e : EntityDecl} (he : e ∈ schema.entities) : ∃ inherited,
    Structures.Inherits c.compiled.layout c.compiled.structures e.node inherited ∧
      c.compiled.structures.get? e.path = some (Structures.withInherited c.compiled.layout
        s.naming e.node inherited (e.attributes.map Attribute.logical)) :=
  h.wellFormed.structure_entity h.structures he

/-- The structure of a relationship is made of the keys of its sides and its own attributes. -/
theorem structure_relationship {r : RelationshipDecl} (hr : r ∈ schema.relationships) :
    ∃ front, c.compiled.structures.get? r.path =
      some (front ++ r.attributes.map Attribute.logical) := by
  obtain ⟨as, hget, hof⟩ := Structures.derive_relationship h.structures h.isIndexed
    (SchemaDecl.relationship_mem_nodes hr)
  obtain ⟨e₁, e₂, left, right, first, second, own, -, -, -, -, hown, rfl⟩ :=
    Structures.ofRelationship_eq_ok.mp hof
  obtain rfl : own = r.attributes.map Attribute.logical :=
    Except.ok.inj (hown.symm.trans (h.wellFormed.own_relationship hr))
  exact ⟨first ++ second, hget⟩

/-- What has a parent has a structure to inherit. -/
theorem inherited_ne_nil {e : EntityDecl} (he : e ∈ schema.entities) {inherited : List Attribute}
    (hinherits : Structures.Inherits c.compiled.layout c.compiled.structures e.node inherited)
    (hparent : e.node.parent.isSome = true) : inherited ≠ [] := by
  cases hinherits with
  | regular hnone => rw [hnone] at hparent; exact nomatch hparent
  | weak => exact List.cons_ne_nil _ _
  | @subclass parent _ hsome _ hget =>
    obtain ⟨p, hp, rfl⟩ := h.wellFormed.exists_parent he hsome
    obtain ⟨above, -, hstructure⟩ := h.structure_entity hp
    obtain rfl := Option.some.inj (hget.symm.trans hstructure)
    have hpos := List.length_pos_iff.mpr (h.wellFormed.attributes_ne_nil h.layout he hp hsome).2
    rw [← List.length_pos_iff, Structures.length_withInherited, List.length_map]
    exact Nat.add_pos_right _ hpos

/-- **The structure of a node ends in its own attributes**, which keep their names unless they
are keys. -/
theorem structure_declared {path : String} {as : List Attribute}
    (hdeclares : schema.Declares path as) :
    ∃ front own, c.compiled.structures.get? path = some (front ++ own) ∧
      List.Forall₂ (fun a b : Attribute =>
        s.naming.isKeyName (Text.lower a.name) = false → b = a.logical) as own := by
  cases hdeclares with
  | @entity e he =>
    obtain ⟨inherited, hinherits, hget⟩ := h.structure_entity he
    obtain ⟨front, own, heq, hall⟩ := Structures.withInherited_eq_append s.naming
      (e.attributes.map Attribute.logical) hinherits
      fun hparent _ => h.inherited_ne_nil he hinherits hparent
    refine ⟨front, own, heq ▸ hget, (List.forall₂_map_left_iff.mp hall).imp fun a b hb hkey => ?_⟩
    exact hb (by rwa [Attribute.name_logical])
  | relationship hr =>
    obtain ⟨front, hget⟩ := h.structure_relationship hr
    exact ⟨front, _, hget, List.forall₂_map_right_iff.mpr
      (List.forall₂_same.mpr fun a _ _ => rfl)⟩

/-- The tables a node owns are found in the schema. -/
theorem tablesNamed (node path : String) :
    CompiledDiagram.tablesNamed c.schema node (c.compiled.ownership.tablesOf path) =
      .ok (c.compiled.ownership.tablesIn c.schema path) :=
  Ownership.tablesNamed_tablesOf h.ownership h.isIndexed (synthesize_nodup h.tables) node path

theorem queryFor_eq {node path : String} {as : List Attribute} (hpath : Text.lower node = path)
    (hget : c.compiled.structures.get? path = some as) :
    c.compiled.queryFor c.schema node = Reconstruction.query path as
      (c.compiled.ownership.tablesIn c.schema path) := by
  rw [CompiledDiagram.queryFor]
  simp only [hpath, hget, h.tablesNamed, ok_bind]

/-- **The query for a node** selects its structure from the tables it owns. -/
theorem queryFor_eq_ok {node : String} {q : Sql.Query} :
    c.compiled.queryFor c.schema node = .ok q ↔ ∃ as,
      c.compiled.structures.get? (Text.lower node) = some as ∧
        Reconstruction.query (Text.lower node) as
          (c.compiled.ownership.tablesIn c.schema (Text.lower node)) = .ok q := by
  cases hget : c.compiled.structures.get? (Text.lower node) with
  | none => simp [CompiledDiagram.queryFor, hget]
  | some as => simp [h.queryFor_eq rfl hget]

end Passes

end Compilation

/-! ## 4. An example -/

/-- Persons with a name in two parts and any number of phones. -/
def EntityDecl.person : EntityDecl :=
  ⟨"Person", .regular, none, [⟨"person_id", .integer, true, false, false, []⟩,
    ⟨"Name", .composite, false, false, false, [⟨"first", .varchar, false, false, false, []⟩,
      ⟨"last", .varchar, false, false, false, []⟩]⟩,
    ⟨"phone", .varchar, false, false, true, []⟩]⟩

/-- Persons, some of them students, who take courses. -/
def SchemaDecl.courses : SchemaDecl where
  entities := [.person,
    ⟨"Student", .subclass, some "Person", [⟨"year", .integer, false, false, false, []⟩]⟩,
    ⟨"Course", .regular, none, [⟨"course_id", .integer, true, false, false, []⟩,
      ⟨"title", .other "TEXT", false, false, false, []⟩]⟩]
  relationships := [
    ⟨"Takes", ⟨"Person", none⟩, ⟨"Course", none⟩, [⟨"grade", .integer, false, false, false, []⟩]⟩]

/-- Names are split into their parts, and phones have a table of their own. -/
def Grouping.ofCourses : List (List String) := [
  ["Person", "Person.Name.first", "Person.Name.last"], ["Person", "Person.phone"],
  ["Person", "Student", "Student.year"], ["Course", "Course.title"],
  ["Takes", "Person", "Course", "Takes.grade"]]

theorem Compilation.exists_queryFor_student : ∃ c q,
    ofDecl .courses (Grouping.ofCourses.map .ofNames) .standard = .ok c ∧
      c.compiled.queryFor c.schema "Student" = .ok q := by
  have hok : (ofDecl .courses (Grouping.ofCourses.map .ofNames) .standard >>= fun c =>
      (c.compiled.queryFor c.schema "Student").mapError .reconstruction).isOk = true := by
    decide +kernel
  obtain ⟨q, hq⟩ := exists_of_isOk hok
  obtain ⟨c, hc, hq⟩ := bind_eq_ok.mp hq
  exact ⟨c, q, hc, mapError_eq_ok.mp hq⟩

end EntityLayout

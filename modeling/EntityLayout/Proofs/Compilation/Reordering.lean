/-
# The order of declarations

A parent has to be declared before what depends on it, and apart from that declarations may come in
any order.  The passes go through the nodes in the order of the schema and read what was settled
before; but what a node reads is settled whenever it is reached, so the order shows in the order of
their registers only.  The tables are made in the order of the groupings.

* `SchemaDecl.Reorders`: the same declarations in another order.
* `SchemaDecl.Reorders.alike`: the diagrams answer alike.
* `Compilation.SameAnswers`, `Compilation.sameAnswers_of_reorders`: **compilations succeed together,
  and agree on every node.**
-/
import EntityLayout.Proofs.Compilation.Alike
import EntityLayout.Proofs.Compilation.Passes
import EntityLayout.Proofs.Diagram.Consistency

namespace EntityLayout

/-! ## 1. Diagrams -/

/-- The same declarations in another order. -/
structure SchemaDecl.Reorders (schema schema' : SchemaDecl) : Prop where
  entities : schema.entities.Perm schema'.entities
  relationships : schema.relationships.Perm schema'.relationships

/-- The paths of the entities that a node refers to. -/
def Node.reads : Node → List String
  | .entity e => e.parent.toList
  | .relationship r => [r.first, r.second]
  | .attr _ => []

namespace SchemaDecl

variable {schema schema' : SchemaDecl}

/-- **Nodes stand behind the entities that they refer to.** -/
theorem IsWellFormed.isOrdered (h : schema.IsWellFormed) :
    Register.IsOrdered Node.path Node.reads schema.diagram.nodes := by
  intro n hn
  cases n with
  | entity e =>
    obtain ⟨decl, hdecl, rfl⟩ := entity_mem_nodes_iff.mp hn
    obtain ⟨before, after, hsplit, hparent⟩ := h.exists_split hdecl
    refine ⟨before, after, hsplit, fun p hp => ?_⟩
    obtain ⟨q, hq, rfl⟩ := hparent p (Option.mem_toList.mp hp)
    exact List.mem_map_of_mem (f := Node.path) hq
  | relationship r =>
    obtain ⟨decl, hdecl, rfl⟩ := relationship_mem_nodes_iff.mp hn
    obtain ⟨front, back, hsplit⟩ := List.append_of_mem hdecl
    have hentity : ∀ e ∈ schema.entities,
        e.path ∈ (schema.entities.flatMap EntityDecl.nodes ++
          front.flatMap RelationshipDecl.nodes).map Node.path := fun e he =>
      List.mem_map.mpr ⟨.entity e.node, List.mem_append_left _
        (List.mem_flatMap.mpr ⟨e, he, List.mem_cons_self⟩), rfl⟩
    refine ⟨schema.entities.flatMap EntityDecl.nodes ++ front.flatMap RelationshipDecl.nodes,
      decl.attributeNodes.map Node.attr ++ back.flatMap RelationshipDecl.nodes,
      by simp [diagram, hsplit, RelationshipDecl.nodes], fun p hp => ?_⟩
    obtain ⟨e₁, he₁, hfirst⟩ := h.first decl hdecl
    obtain ⟨e₂, he₂, hsecond⟩ := h.second decl hdecl
    rcases List.mem_cons.mp hp with rfl | hp
    · rw [RelationshipDecl.first_node, ← hfirst]
      exact hentity e₁ he₁
    · rw [List.mem_singleton.mp hp, RelationshipDecl.second_node, ← hsecond]
      exact hentity e₂ he₂
  | attr a =>
    obtain ⟨before, after, hsplit⟩ := List.append_of_mem hn
    exact ⟨before, after, hsplit, fun p hp => absurd hp List.not_mem_nil⟩

namespace Reorders

variable (hperm : schema.Reorders schema')

include hperm

theorem symm : schema'.Reorders schema := ⟨hperm.entities.symm, hperm.relationships.symm⟩

theorem nodes : schema.diagram.nodes.Perm schema'.diagram.nodes :=
  (hperm.entities.flatMap_right _).append (hperm.relationships.flatMap_right _)

variable (h : schema.IsWellFormed) (h' : schema'.IsWellFormed)

include h h'

/-- A path belongs to the same node. -/
theorem find?_eq (key : String) : schema.diagram.nodes.find? (fun n => n.path = key) =
    schema'.diagram.nodes.find? (fun n => n.path = key) := by
  refine Option.ext fun n => ?_
  rw [Diagram.find?_eq_some_of_nodup h.nodup, Diagram.find?_eq_some_of_nodup h'.nodup,
    hperm.nodes.mem_iff]

theorem nodeAt_eq (path : String) : schema.diagram.nodeAt path = schema'.diagram.nodeAt path := by
  rw [Diagram.nodeAt, Diagram.nodeAt, Diagram.find?, Diagram.find?, hperm.find?_eq h h']

/-- A relationship relates the same entities, though its edges stand elsewhere. -/
theorem related_eq {r : RelationshipDecl} (hr : r ∈ schema.relationships) :
    schema.diagram.related r.path = schema'.diagram.related r.path := by
  rw [Diagram.related_eq, Diagram.related_eq, h.filter_edges_eq hr,
    h'.filter_edges_eq (hperm.relationships.mem_iff.mp hr)]
  exact List.filterMap_congr fun e _ => by rw [hperm.find?_eq h h']

/-- The ends of a relationship are the same. -/
theorem endpoints_eq (path : String) :
    schema.diagram.endpoints path = schema'.diagram.endpoints path := by
  have hat : schema.diagram.relationshipAt path = schema'.diagram.relationshipAt path := by
    rw [Diagram.relationshipAt, Diagram.relationshipAt, hperm.nodeAt_eq h h']
  rw [Diagram.endpoints, Diagram.endpoints, ← hat]
  cases hr : schema.diagram.relationshipAt path with
  | error e => rfl
  | ok r =>
    obtain ⟨decl, hdecl, rfl⟩ :=
      relationship_mem_nodes_iff.mp (h.isIndexed.relationshipAt_eq_ok.mp hr).1
    rw [ok_bind, ok_bind, RelationshipDecl.path_node, hperm.related_eq h h' hdecl]

/-- **The diagrams answer alike.** -/
theorem alike : schema.diagram.Alike schema'.diagram where
  nodeAt path := by
    rw [hperm.nodeAt_eq h h']
    exact .refl Node.Alike.refl _
  endpoints path := by
    rw [hperm.endpoints_eq h h']
    exact .refl (fun x => ⟨.refl x.1, .refl x.2⟩) _
  length_eq := hperm.nodes.length_eq

end Reorders

end SchemaDecl

/-! ## 2. Node by node -/

section

variable {d d' : Diagram} {layout layout' : Layout} {naming : Naming} {groupings : List Grouping}
  {n : Node} (hlayout : ∀ path, layout.get? path = layout'.get? path)

include hlayout

/-- What is settled for a node depends on the entities that it refers to. -/
theorem Ownership.isSettled_congr {tables : List Table} {settled settled' : Ownership}
    {owned : Option (List String)} (hreads : ∀ p ∈ n.reads, settled.get? p = settled'.get? p)
    (h : IsSettled layout groupings tables settled n owned) :
    IsSettled layout' groupings tables settled' n owned := by
  cases n with
  | entity e =>
    have hsame : entityTables layout groupings tables settled e =
        entityTables layout' groupings tables settled' e :=
      entityTables_alike (.refl e) (hlayout e.path) fun p hp =>
        hreads p (Option.mem_toList.mpr hp)
    rw [IsSettled, hsame] at h
    exact h
  | relationship r => exact h
  | attr a => exact h

/-- The structure of a node depends on the entities that it refers to. -/
theorem Structures.isValue_congr (halike : d.Alike d') (hd : d.IsIndexed) (hn : n ∈ d.nodes)
    {known known' : Structures} {as : Option (List Attribute)}
    (hreads : ∀ p ∈ n.reads, known.get? p = known'.get? p)
    (h : IsValue d layout naming known n as) : IsValue d' layout' naming known' n as := by
  cases n with
  | entity e =>
    have hsame : ofEntity d layout naming known e = ofEntity d' layout' naming known' e :=
      ofEntity_alike halike (.refl e) (hlayout e.path) fun p hp =>
        hreads p (Option.mem_toList.mpr hp)
    rw [IsValue, hsame] at h
    exact h
  | relationship r =>
    have hsame : ofRelationship d naming known r = ofRelationship d' naming known' r := by
      refine ofRelationship_alike halike (.respelled r.name rfl) fun e₁ e₂ hends => ?_
      obtain ⟨hfirst, hsecond⟩ := hd.paths_of_endpoints hn hends
      rw [hfirst, hsecond]
      exact ⟨hreads _ List.mem_cons_self, hreads _ (List.mem_cons_of_mem _ List.mem_cons_self)⟩
    rw [IsValue, hsame] at h
    exact h
  | attr a => exact h

end

/-! ## 3. Pass by pass -/

namespace Compilation

variable {schema schema' : SchemaDecl} {groupings : List Grouping} {s : Settings} {c : Compilation}

namespace Passes

variable (h : Passes schema groupings s c) (h' : schema'.IsWellFormed)
  (hperm : schema.Reorders schema')

include h h' hperm

/-- **The same is decided for every entity**; no decision depends on another one. -/
theorem layout_reorder : ∃ layout, schema'.diagram.classify groupings = .ok layout ∧
    ∀ path, layout.get? path = c.compiled.layout.get? path := by
  have halike := hperm.alike h.wellFormed h'
  have hfree : ∀ es : List EntityNode, Register.IsOrdered EntityNode.path (fun _ => []) es := by
    intro es e he
    obtain ⟨before, after, hsplit⟩ := List.append_of_mem he
    exact ⟨before, after, hsplit, fun p hp => absurd hp List.not_mem_nil⟩
  have hnodup : (schema.diagram.entities.map EntityNode.path).Nodup :=
    h.isIndexed.nodup.sublist (Diagram.entities_sublist _)
  obtain ⟨layout, hfills, hsame⟩ := (Diagram.classifyEach_eq_ok.mp h.layout).reorder
    (hperm.nodes.filterMap Node.entity?) hnodup (hfree _) (hfree _)
    fun e _ _ _ _ _ hdecision => (halike.decision_eq (.refl e)).symm.trans hdecision
  exact ⟨layout, Diagram.classifyEach_eq_ok.mpr hfills, hsame⟩

section

variable {layout : Layout} (hlayout : ∀ path, layout.get? path = c.compiled.layout.get? path)

include hlayout

/-- The tables are the same, columns and composite types included. -/
theorem tables_reorder :
    synthesize schema'.diagram layout groupings s.naming = .ok c.schema := by
  rw [← synthesize_alike (hperm.alike h.wellFormed h') fun path => (hlayout path).symm]
  exact h.tables

/-- **Every node has the same tables**: those of a parent are known before they are needed. -/
theorem ownership_reorder : ∃ ownership,
    Ownership.resolve schema'.diagram layout groupings c.schema = .ok ownership ∧
      ∀ path, ownership.get? path = c.compiled.ownership.get? path := by
  obtain ⟨ownership, hfills, hsame⟩ := (Ownership.resolveEach_eq_ok.mp h.ownership).reorder
    hperm.nodes h.isIndexed.nodup h.wellFormed.isOrdered h'.isOrdered
    fun _ _ _ _ _ hreads => Ownership.isSettled_congr (fun path => (hlayout path).symm) hreads
  exact ⟨ownership, Ownership.resolveEach_eq_ok.mpr hfills, hsame⟩

/-- **Every node has the same structure**: what it inherits or refers to is known before it is
needed. -/
theorem structures_reorder : ∃ structures,
    Structures.derive schema'.diagram layout s.naming = .ok structures ∧
      ∀ path, structures.get? path = c.compiled.structures.get? path := by
  obtain ⟨structures, hfills, hsame⟩ := (Structures.deriveEach_eq_ok.mp h.structures).reorder
    hperm.nodes h.isIndexed.nodup h.wellFormed.isOrdered h'.isOrdered
    fun _ hn _ _ _ hreads => Structures.isValue_congr (fun path => (hlayout path).symm)
      (hperm.alike h.wellFormed h') h.isIndexed hn hreads
  exact ⟨structures, Structures.deriveEach_eq_ok.mpr hfills, hsame⟩

end

end Passes

/-! ## 4. Compilations -/

/-- Compilations that agree on every node, though their registers may list the nodes in different
orders. -/
structure SameAnswers (c c' : Compilation) : Prop where
  /-- the tables, their columns and the composite types, in the same order -/
  schema : c.schema = c'.schema
  layout : ∀ path, c.compiled.layout.get? path = c'.compiled.layout.get? path
  ownership : ∀ path, c.compiled.ownership.get? path = c'.compiled.ownership.get? path
  structures : ∀ path, c.compiled.structures.get? path = c'.compiled.structures.get? path
  query : ∀ node, c.compiled.queryFor c.schema node = c'.compiled.queryFor c'.schema node
  queryText : ∀ node, c.queryText node = c'.queryText node

/-- A compilation succeeds in another order of declarations, with the same answers. -/
theorem Passes.exists_reorder (h : Passes schema groupings s c) (h' : schema'.IsWellFormed)
    (hperm : schema.Reorders schema') :
    ∃ c', Passes schema' groupings s c' ∧ SameAnswers c c' := by
  obtain ⟨layout, hclassify, hlayout⟩ := h.layout_reorder h' hperm
  obtain ⟨ownership, hresolve, hownership⟩ := h.ownership_reorder h' hperm hlayout
  obtain ⟨structures, hderive, hstructures⟩ := h.structures_reorder h' hperm hlayout
  let compiled : CompiledDiagram := ⟨schema'.diagram, layout, ownership, structures⟩
  have hquery : ∀ node, c.compiled.queryFor c.schema node = compiled.queryFor c.schema node := by
    intro node
    simp only [compiled, CompiledDiagram.queryFor, Ownership.tablesOf, hownership, hstructures]
  refine ⟨⟨compiled, c.schema, s.dialect, s.validate⟩,
    ⟨h', rfl, hclassify, h.tables_reorder h' hperm hlayout, hresolve, hderive, rfl, rfl⟩,
    rfl, fun path => (hlayout path).symm, fun path => (hownership path).symm,
    fun path => (hstructures path).symm, hquery, fun node => ?_⟩
  simp only [queryText, CompiledDiagram.queryText, hquery, h.settings.1, h.settings.2]

/-- **The order of declarations does not matter** beyond parents coming first.  Where a schema has
a diagram in both of two orders, it compiles in both or in neither, and both compilations agree on
the tables and on every node. -/
theorem sameAnswers_of_reorders {d d' : Diagram} (hperm : schema.Reorders schema')
    (hd : Diagram.ofDecl schema = .ok d) (hd' : Diagram.ofDecl schema' = .ok d')
    (groupings : List Grouping) (s : Settings) :
    ((∃ c, ofDecl schema groupings s = .ok c) ↔ ∃ c', ofDecl schema' groupings s = .ok c') ∧
      ∀ c c', ofDecl schema groupings s = .ok c → ofDecl schema' groupings s = .ok c' →
        SameAnswers c c' := by
  have hw := (Diagram.ofDecl_eq_ok.mp hd).1
  have hw' := (Diagram.ofDecl_eq_ok.mp hd').1
  constructor
  · constructor
    · rintro ⟨c, hc⟩
      obtain ⟨c', hc', -⟩ := (ofDecl_eq_ok.mp hc).exists_reorder hw' hperm
      exact ⟨c', ofDecl_eq_ok.mpr hc'⟩
    · rintro ⟨c', hc'⟩
      obtain ⟨c, hc, -⟩ := (ofDecl_eq_ok.mp hc').exists_reorder hw hperm.symm
      exact ⟨c, ofDecl_eq_ok.mpr hc⟩
  · intro c c' hc hc'
    obtain ⟨c'', hc'', hsame⟩ := (ofDecl_eq_ok.mp hc).exists_reorder hw' hperm
    obtain rfl := Except.ok.inj (hc'.symm.trans (ofDecl_eq_ok.mpr hc''))
    exact hsame

end Compilation

/-! ## 5. An example -/

/-- Cities, and travellers, some of them guides who lead trips to cities. -/
def SchemaDecl.travels : SchemaDecl where
  entities := [
    ⟨"City", .regular, none, [⟨"city_id", .integer, true, false, false, []⟩,
      ⟨"title", .varchar, false, false, false, []⟩]⟩,
    ⟨"Traveller", .regular, none, [⟨"traveller_id", .integer, true, false, false, []⟩,
      ⟨"name", .varchar, false, false, false, []⟩]⟩,
    ⟨"Guide", .subclass, some "Traveller", [⟨"language", .varchar, false, false, false, []⟩]⟩,
    ⟨"Trip", .weak, some "Guide", [⟨"day", .integer, false, true, false, []⟩]⟩]
  relationships := [
    ⟨"Visits", ⟨"Trip", none⟩, ⟨"City", none⟩, [⟨"hours", .integer, false, false, false, []⟩]⟩,
    ⟨"Meets", ⟨"Traveller", some "host"⟩, ⟨"Traveller", some "visitor"⟩, []⟩]

/-- The same declarations, with travellers first and cities last. -/
def SchemaDecl.travelsToCities : SchemaDecl where
  entities := SchemaDecl.travels.entities.drop 1 ++ SchemaDecl.travels.entities.take 1
  relationships := SchemaDecl.travels.relationships.reverse

/-- Guides are stored beside travellers, and trips with the keys of their guides. -/
def Grouping.ofTravels : List (List String) := [
  ["Traveller", "Traveller.name"], ["Traveller", "Guide", "Guide.language"],
  ["Trip", "Guide", "Traveller", "Trip.day"], ["City", "City.title"],
  ["Visits", "Trip", "City", "Traveller", "Trip.day", "Visits.hours"],
  ["Meets", "Traveller", "Traveller"]]

namespace Compilation

/-- In both orders everything has the same answers, listed in different orders. -/
theorem sameAnswers_travels : ∃ c c',
    ofDecl .travels (Grouping.ofTravels.map .ofNames) .standard = .ok c ∧
      ofDecl .travelsToCities (Grouping.ofTravels.map .ofNames) .standard = .ok c' ∧
      SameAnswers c c' ∧
      c.compiled.structures.names = ["city", "traveller", "guide", "trip", "visits", "meets"] ∧
      c'.compiled.structures.names = ["traveller", "guide", "trip", "city", "meets", "visits"] := by
  have heval : (ofDecl .travels (Grouping.ofTravels.map .ofNames) .standard).toOption.any (fun c =>
      decide (c.compiled.structures.names =
        ["city", "traveller", "guide", "trip", "visits", "meets"])) = true := by decide +kernel
  obtain ⟨c, hc, hnames⟩ := exists_of_any heval
  obtain ⟨d, hd⟩ := exists_of_isOk (show (Diagram.ofDecl .travels).isOk = true by decide +kernel)
  obtain ⟨d', hd'⟩ :=
    exists_of_isOk (show (Diagram.ofDecl .travelsToCities).isOk = true by decide +kernel)
  have hperm : SchemaDecl.travels.Reorders .travelsToCities :=
    ⟨by decide +kernel, by decide +kernel⟩
  obtain ⟨hboth, hsame⟩ := sameAnswers_of_reorders hperm hd hd'
    (Grouping.ofTravels.map .ofNames) .standard
  obtain ⟨c', hc'⟩ := hboth.mp ⟨c, hc⟩
  refine ⟨c, c', hc, hc', hsame c c' hc hc', of_decide_eq_true hnames, ?_⟩
  rw [Structures.derive_names (ofDecl_eq_ok.mp hc').structures (ofDecl_eq_ok.mp hc').isIndexed]
  decide +kernel

end Compilation

end EntityLayout

/-
# No reference dangles

Every path that a node of a schema's diagram refers to, and every end of an edge, is the path
of a node.

* `IsWellFormed.mem_paths_of_reference`: the references of nodes.
* `IsWellFormed.mem_paths_of_edge`: the ends of edges.
-/
import EntityLayout.Document.Compiled
import EntityLayout.Proofs.Diagram.Views

namespace EntityLayout

/-! ## 1. Attributes -/

namespace Attribute

/-- The node of an attribute refers to the owner, and to the attributes around it and within
it, which are among the nodes. -/
theorem references_of_mem_nodes {n : AttributeNode} : ∀ {a : Attribute} {above owner : String}
    {parent : Option String}, n ∈ a.nodes above owner parent →
      n.owner = owner ∧ (n.parent = parent ∨ ∃ m ∈ a.nodes above owner parent,
        n.parent = some m.path) ∧
        ∀ c ∈ n.children, ∃ m ∈ a.nodes above owner parent, m.path = c := by
  intro a
  induction a using Attribute.induction with
  | step a ih =>
    intro above owner parent hn
    rcases mem_nodes_iff.mp hn with rfl | ⟨b, hb, hn⟩
    · refine ⟨rfl, .inl rfl, fun c hc => ?_⟩
      obtain ⟨b, hb, rfl⟩ := List.mem_map.mp hc
      exact ⟨_, mem_nodes_of_part hb (b.node_mem_nodes _ _ _), rfl⟩
    · obtain ⟨howner, hparent, hchildren⟩ := ih b (shownParts_subset hb) hn
      refine ⟨howner, .inr ?_, fun c hc => ?_⟩
      · rcases hparent with hp | ⟨m, hm, hp⟩
        · exact ⟨_, a.node_mem_nodes _ _ _, hp⟩
        · exact ⟨m, mem_nodes_of_part hb hm, hp⟩
      · obtain ⟨m, hm, hc⟩ := hchildren c hc
        exact ⟨m, mem_nodes_of_part hb hm, hc⟩

/-- An edge to an attribute comes from the owner or from another attribute. -/
theorem ends_of_mem_edges {e : Edge} (owner : String) : ∀ {a : Attribute} {kind : EdgeKind}
    {above : String} (parent : Option String), e ∈ a.edges kind above →
      (e.source = above ∨ ∃ m ∈ a.nodes above owner parent, m.path = e.source) ∧
        ∃ m ∈ a.nodes above owner parent, m.path = e.target := by
  intro a
  induction a using Attribute.induction with
  | step a ih =>
    intro kind above parent he
    rw [edges_eq, List.mem_cons, edgesOf_eq_flatMap, List.mem_flatMap] at he
    rcases he with rfl | ⟨b, hb, he⟩
    · exact ⟨.inl rfl, _, a.node_mem_nodes _ _ _, rfl⟩
    · obtain ⟨hsource, m, hm, htarget⟩ := ih b (shownParts_subset hb) _ he
      refine ⟨.inr ?_, m, mem_nodes_of_part hb hm, htarget⟩
      rcases hsource with hs | ⟨m, hm, hs⟩
      · exact ⟨_, a.node_mem_nodes _ _ _, hs.symm⟩
      · exact ⟨m, mem_nodes_of_part hb hm, hs⟩

end Attribute

/-! ## 2. Declarations -/

namespace Diagram

variable {d : Diagram} {path : String} {as : List Attribute}

/-- Where an owner stands with its attributes, no reference of the attributes dangles. -/
theorem mem_paths_of_attribute (hpath : path ∈ d.paths)
    (hmem : ∀ n ∈ Attribute.nodesOf path path none as, .attr n ∈ d.nodes) {n : AttributeNode}
    (hn : n ∈ Attribute.nodesOf path path none as) {p : String}
    (hp : p ∈ GraphFile.references (.attr n)) : p ∈ d.paths := by
  rw [Attribute.nodesOf_eq_flatMap] at hn hmem
  obtain ⟨a, ha, hn⟩ := List.mem_flatMap.mp hn
  have hpaths : ∀ m ∈ a.nodes path path none, m.path ∈ d.paths := fun m hm =>
    path_mem_paths (n := .attr m) (hmem m (List.mem_flatMap.mpr ⟨a, ha, hm⟩))
  obtain ⟨howner, hparent, hchildren⟩ := Attribute.references_of_mem_nodes hn
  simp only [GraphFile.references, List.mem_cons, List.mem_append, Option.mem_toList] at hp
  rcases hp with rfl | hp | hp
  · rwa [howner]
  · rcases hparent with hnone | ⟨m, hm, hsome⟩
    · exact nomatch hnone.symm.trans hp
    · obtain rfl : m.path = p := Option.some.inj (hsome.symm.trans hp)
      exact hpaths m hm
  · obtain ⟨m, hm, rfl⟩ := hchildren p hp
    exact hpaths m hm

/-- No end of an edge to an attribute dangles. -/
theorem mem_paths_of_attributeEdge (hpath : path ∈ d.paths)
    (hmem : ∀ n ∈ Attribute.nodesOf path path none as, .attr n ∈ d.nodes) {e : Edge}
    (he : e ∈ Attribute.edgesOf .hasAttribute path as) :
    e.source ∈ d.paths ∧ e.target ∈ d.paths := by
  rw [Attribute.nodesOf_eq_flatMap] at hmem
  rw [Attribute.edgesOf_eq_flatMap] at he
  obtain ⟨a, ha, he⟩ := List.mem_flatMap.mp he
  have hpaths : ∀ m ∈ a.nodes path path none, m.path ∈ d.paths := fun m hm =>
    path_mem_paths (n := .attr m) (hmem m (List.mem_flatMap.mpr ⟨a, ha, hm⟩))
  obtain ⟨hsource, m, hm, htarget⟩ := Attribute.ends_of_mem_edges path none he
  refine ⟨?_, htarget ▸ hpaths m hm⟩
  rcases hsource with hs | ⟨m, hm, hs⟩
  · rwa [hs]
  · exact hs ▸ hpaths m hm

end Diagram

namespace SchemaDecl

variable {schema : SchemaDecl}

theorem entity_mem_paths {e : EntityDecl} (he : e ∈ schema.entities) :
    e.path ∈ schema.diagram.paths :=
  Diagram.path_mem_paths (n := .entity e.node) (entity_mem_nodes he)

theorem relationship_mem_paths {r : RelationshipDecl} (hr : r ∈ schema.relationships) :
    r.path ∈ schema.diagram.paths :=
  Diagram.path_mem_paths (n := .relationship r.node) (relationship_mem_nodes hr)

theorem attribute_mem_nodes {e : EntityDecl} (he : e ∈ schema.entities) :
    ∀ n ∈ e.attributeNodes, .attr n ∈ schema.diagram.nodes := fun _ hn =>
  (attributes_sublist he).subset (List.mem_map_of_mem hn)

theorem relationshipAttribute_mem_nodes {r : RelationshipDecl} (hr : r ∈ schema.relationships) :
    ∀ n ∈ r.attributeNodes, .attr n ∈ schema.diagram.nodes := fun _ hn =>
  (relationshipAttributes_sublist hr).subset (List.mem_map_of_mem hn)

namespace IsWellFormed

variable (h : schema.IsWellFormed)

include h

/-- A weak entity or subclass has a parent, which is an entity. -/
theorem exists_parent_of_kind {e : EntityDecl} (he : e ∈ schema.entities)
    (hkind : e.kind ≠ .regular) : ∃ p ∈ schema.entities, e.parentPath = some p.path := by
  obtain ⟨before, after, hsplit⟩ := List.append_of_mem he
  obtain ⟨p, hp, hpath⟩ := h.parents before e after hsplit hkind
  exact ⟨p, by rw [hsplit]; exact List.mem_append_left _ hp, hpath⟩

/-- The parent of an entity is an entity. -/
theorem exists_parent {e : EntityDecl} (he : e ∈ schema.entities) {p : String}
    (hp : p ∈ e.parentPath) : ∃ parent ∈ schema.entities, parent.path = p := by
  obtain ⟨q, hq, hpath⟩ := h.exists_parent_of_kind he (EntityDecl.kind_ne_regular hp)
  exact ⟨q, hq, Option.some.inj (hpath.symm.trans hp)⟩

theorem parent_mem_paths {e : EntityDecl} (he : e ∈ schema.entities) {p : String}
    (hp : p ∈ e.parentPath) : p ∈ schema.diagram.paths := by
  obtain ⟨q, hq, rfl⟩ := h.exists_parent he hp
  exact entity_mem_paths hq

theorem ends_mem_paths {r : RelationshipDecl} (hr : r ∈ schema.relationships) :
    r.firstPath ∈ schema.diagram.paths ∧ r.secondPath ∈ schema.diagram.paths := by
  obtain ⟨e₁, he₁, hp₁⟩ := h.first r hr
  obtain ⟨e₂, he₂, hp₂⟩ := h.second r hr
  exact ⟨hp₁ ▸ entity_mem_paths he₁, hp₂ ▸ entity_mem_paths he₂⟩

/-- **No reference of a node dangles.** -/
theorem mem_paths_of_reference {n : Node} (hn : n ∈ schema.diagram.nodes) {p : String}
    (hp : p ∈ GraphFile.references n) : p ∈ schema.diagram.paths := by
  rcases mem_nodes.mp hn with ⟨e, he, hn⟩ | ⟨r, hr, hn⟩
  · rcases List.mem_cons.mp hn with rfl | hn
    · rcases List.mem_append.mp hp with hp | hp
      · exact h.parent_mem_paths he (Option.mem_toList.mp hp)
      · obtain ⟨a, ha, rfl⟩ := List.mem_map.mp hp
        exact Diagram.path_mem_paths (attribute_mem_nodes he a ha)
    · obtain ⟨a, ha, rfl⟩ := List.mem_map.mp hn
      exact Diagram.mem_paths_of_attribute (entity_mem_paths he) (attribute_mem_nodes he) ha hp
  · rcases List.mem_cons.mp hn with rfl | hn
    · simp only [GraphFile.references, List.mem_cons] at hp
      rcases hp with rfl | rfl | hp
      · exact (h.ends_mem_paths hr).1
      · exact (h.ends_mem_paths hr).2
      · obtain ⟨a, ha, rfl⟩ := List.mem_map.mp hp
        exact Diagram.path_mem_paths (relationshipAttribute_mem_nodes hr a ha)
    · obtain ⟨a, ha, rfl⟩ := List.mem_map.mp hn
      exact Diagram.mem_paths_of_attribute (relationship_mem_paths hr)
        (relationshipAttribute_mem_nodes hr) ha hp

/-- **No end of an edge dangles.** -/
theorem mem_paths_of_edge {e : Edge} (he : e ∈ schema.diagram.edges) :
    e.source ∈ schema.diagram.paths ∧ e.target ∈ schema.diagram.paths := by
  rcases List.mem_append.mp he with he | he
  · obtain ⟨decl, hd, he⟩ := List.mem_flatMap.mp he
    rcases List.mem_append.mp he with he | he
    · exact Diagram.mem_paths_of_attributeEdge (entity_mem_paths hd) (attribute_mem_nodes hd) he
    · obtain ⟨p, hp, rfl⟩ := Option.map_eq_some_iff.mp (Option.mem_toList.mp he)
      exact ⟨entity_mem_paths hd, h.parent_mem_paths hd hp⟩
  · obtain ⟨decl, hd, he⟩ := List.mem_flatMap.mp he
    rcases List.mem_append.mp he with he | he
    · exact Diagram.mem_paths_of_attributeEdge (relationship_mem_paths hd)
        (relationshipAttribute_mem_nodes hd) he
    · simp only [List.mem_cons, List.not_mem_nil, or_false] at he
      rcases he with rfl | rfl
      · exact ⟨relationship_mem_paths hd, (h.ends_mem_paths hd).1⟩
      · exact ⟨relationship_mem_paths hd, (h.ends_mem_paths hd).2⟩

end IsWellFormed

end SchemaDecl

end EntityLayout

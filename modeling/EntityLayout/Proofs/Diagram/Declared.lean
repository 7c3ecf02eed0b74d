/-
# Where declared attributes stand

The attributes that a schema declares, with the parts of their parts, and the nodes that its
diagram has for them.

* `SchemaDecl.Declares`: an owner with the attributes declared for it.
* `SchemaDecl.DeclaresAt`: an attribute at any depth, with the path above it, its owner and the
  attribute around it.
* `DeclaresAt.sublist`, `exists_declaresAt`: **the attribute nodes are those of the declared
  attributes**, each with its parts behind it.
* `DeclaresAt.exists_part`: the parts that an attribute lists are found under longer paths.
-/
import EntityLayout.Proofs.Diagram.References

namespace EntityLayout.SchemaDecl

open Attribute (nodesOf nodesOf_eq_flatMap nodes_eq mem_nodes_iff)

variable {schema : SchemaDecl} {path above owner : String} {parent : Option String}
  {as : List Attribute} {a b : Attribute}

/-! ## 1. Owners -/

/-- An entity or relationship and the attributes that are declared for it. -/
inductive Declares (schema : SchemaDecl) : String → List Attribute → Prop where
  | entity {e : EntityDecl} : e ∈ schema.entities → Declares schema e.path e.attributes
  | relationship {r : RelationshipDecl} :
      r ∈ schema.relationships → Declares schema r.path r.attributes

/-- The attributes of an owner stand in the diagram in order. -/
theorem Declares.sublist (h : schema.Declares path as) :
    ((nodesOf path path none as).map Node.attr).Sublist schema.diagram.nodes := by
  cases h with
  | entity he => exact attributes_sublist he
  | relationship hr => exact relationshipAttributes_sublist hr

theorem Declares.lower_path (h : schema.Declares path as) : Text.lower path = path := by
  cases h <;> exact Text.lower_lower _

/-- The owner has a node, which lists its attributes. -/
theorem Declares.exists_owner (h : schema.Declares path as) : ∃ n ∈ schema.diagram.nodes,
    n.path = path ∧ n.owned? = some ((nodesOf path path none as).map AttributeNode.path) := by
  cases h with
  | entity he => exact ⟨_, entity_mem_nodes he, rfl, rfl⟩
  | relationship hr => exact ⟨_, relationship_mem_nodes hr, rfl, rfl⟩

/-- A node that lists attributes is that of an owner. -/
theorem exists_declares_of_owned {n : Node} (hn : n ∈ schema.diagram.nodes) {owned : List String}
    (howned : n.owned? = some owned) : ∃ as, schema.Declares n.path as ∧
      owned = (nodesOf n.path n.path none as).map AttributeNode.path := by
  cases n with
  | entity e =>
    obtain ⟨decl, hdecl, rfl⟩ := entity_mem_nodes_iff.mp hn
    exact ⟨decl.attributes, .entity hdecl, (Option.some.inj howned).symm⟩
  | relationship r =>
    obtain ⟨decl, hdecl, rfl⟩ := relationship_mem_nodes_iff.mp hn
    exact ⟨decl.attributes, .relationship hdecl, (Option.some.inj howned).symm⟩
  | attr a => exact nomatch howned

/-- The attributes of an owner name it. -/
theorem owner_of_mem_nodesOf {n : AttributeNode} (hn : n ∈ nodesOf path path none as) :
    n.owner = path := by
  rw [nodesOf_eq_flatMap] at hn
  obtain ⟨a, -, hn⟩ := List.mem_flatMap.mp hn
  exact (Attribute.references_of_mem_nodes hn).1

/-- The node of an attribute is listed by its owner. -/
theorem exists_declares {n : AttributeNode} (hn : .attr n ∈ schema.diagram.nodes) :
    ∃ as, schema.Declares n.owner as ∧ n ∈ nodesOf n.owner n.owner none as := by
  rcases mem_nodes.mp hn with ⟨e, he, hn⟩ | ⟨r, hr, hn⟩
  · obtain ⟨m, hm, hmn⟩ := List.mem_map.mp ((List.mem_cons.mp hn).resolve_left nofun)
    obtain rfl := Node.attr.inj hmn
    rw [owner_of_mem_nodesOf hm]
    exact ⟨e.attributes, .entity he, hm⟩
  · obtain ⟨m, hm, hmn⟩ := List.mem_map.mp ((List.mem_cons.mp hn).resolve_left nofun)
    obtain rfl := Node.attr.inj hmn
    rw [owner_of_mem_nodesOf hm]
    exact ⟨r.attributes, .relationship hr, hm⟩

/-! ## 2. Attributes at any depth -/

/-- An attribute that the schema declares, with the path above it, its owner and the attribute
around it. -/
inductive DeclaresAt (schema : SchemaDecl) : String → String → Option String → Attribute → Prop where
  | own {path : String} {as : List Attribute} {a : Attribute} :
      schema.Declares path as → a ∈ as → DeclaresAt schema path path none a
  | part {above owner : String} {parent : Option String} {a b : Attribute} :
      DeclaresAt schema above owner parent a → b ∈ a.shownParts →
        DeclaresAt schema (a.pathBelow above) owner (some (a.pathBelow above)) b

theorem DeclaresAt.lower_above (h : schema.DeclaresAt above owner parent a) :
    Text.lower above = above := by
  cases h with
  | own h _ => exact h.lower_path
  | part _ _ => exact Attribute.lower_pathBelow _ _

/-- **An attribute stands in the diagram with its parts behind it.** -/
theorem DeclaresAt.sublist (h : schema.DeclaresAt above owner parent a) :
    ((a.nodes above owner parent).map Node.attr).Sublist schema.diagram.nodes := by
  induction h with
  | @own path as a h ha =>
    have hsub := (List.singleton_sublist.mpr ha).flatMap (Attribute.nodes path path none)
    rw [List.flatMap_singleton, ← nodesOf_eq_flatMap] at hsub
    exact (hsub.map Node.attr).trans h.sublist
  | @part above owner parent a b _ hb ih =>
    refine .trans (.map Node.attr ?_) ih
    have hsub := (List.singleton_sublist.mpr hb).flatMap
      (Attribute.nodes (a.pathBelow above) owner (some (a.pathBelow above)))
    rw [List.flatMap_singleton, ← nodesOf_eq_flatMap] at hsub
    rw [nodes_eq above]
    exact hsub.trans (List.sublist_cons_self _ _)

theorem DeclaresAt.mem_nodes (h : schema.DeclaresAt above owner parent a) :
    .attr (a.node above owner parent) ∈ schema.diagram.nodes :=
  h.sublist.subset (List.mem_map_of_mem (a.node_mem_nodes above owner parent))

/-- A part stands behind the attribute that it is a part of. -/
theorem DeclaresAt.part_sublist (h : schema.DeclaresAt above owner parent a)
    (hb : b ∈ a.shownParts) :
    [.attr (a.node above owner parent),
      .attr (b.node (a.pathBelow above) owner (some (a.pathBelow above)))].Sublist
        schema.diagram.nodes := by
  refine .trans ?_ h.sublist
  rw [nodes_eq, List.map_cons, List.cons_sublist_cons, List.singleton_sublist, nodesOf_eq_flatMap]
  exact List.mem_map_of_mem (List.mem_flatMap.mpr ⟨b, hb, b.node_mem_nodes _ _ _⟩)

/-- A node of an attribute or of its parts is that of a declared attribute. -/
theorem DeclaresAt.exists_of_mem {n : AttributeNode} : ∀ {a : Attribute} {above : String}
    {parent : Option String}, schema.DeclaresAt above owner parent a →
      n ∈ a.nodes above owner parent → ∃ above parent b,
        schema.DeclaresAt above owner parent b ∧ n = b.node above owner parent := by
  intro a
  induction a using Attribute.induction with
  | step a ih =>
    intro above parent h hn
    rcases mem_nodes_iff.mp hn with rfl | ⟨b, hb, hn⟩
    · exact ⟨above, parent, a, h, rfl⟩
    · exact ih b (Attribute.shownParts_subset hb) (h.part hb) hn

/-- **Every attribute node is that of a declared attribute.** -/
theorem exists_declaresAt {n : AttributeNode} (hn : .attr n ∈ schema.diagram.nodes) :
    ∃ above parent a, schema.DeclaresAt above n.owner parent a ∧
      n = a.node above n.owner parent := by
  obtain ⟨as, hdeclares, hn⟩ := exists_declares hn
  rw [nodesOf_eq_flatMap] at hn
  obtain ⟨a, ha, hn⟩ := List.mem_flatMap.mp hn
  exact DeclaresAt.exists_of_mem (.own hdeclares ha) hn

/-- The path of an attribute is longer than the one above it. -/
theorem DeclaresAt.length_lt (h : schema.DeclaresAt above owner parent a) :
    above.length < (a.pathBelow above).length := by
  have hlength := congrArg List.length (Path.toList_below h.lower_above a.name)
  rw [List.length_append, List.length_cons, String.length_toList, String.length_toList] at hlength
  rw [Attribute.pathBelow, hlength]
  omega

/-! ## 3. Looking up parts -/

/-- The parts that an attribute lists are found. -/
theorem DeclaresAt.mapM_children (hd : schema.diagram.IsIndexed)
    (h : schema.DeclaresAt above owner parent a) :
    (a.node above owner parent).children.mapM schema.diagram.attributeAt =
      .ok (a.shownParts.map
        (Attribute.node (a.pathBelow above) owner (some (a.pathBelow above)))) := by
  have hchildren : (a.node above owner parent).children =
      a.shownParts.map (Attribute.pathBelow (a.pathBelow above)) := rfl
  rw [hchildren, mapM_eq_ok, List.forall₂_map_left_iff, List.forall₂_map_right_iff,
    List.forall₂_same]
  intro b hb
  exact hd.attributeAt_eq_ok.mpr ⟨(h.part hb).mem_nodes, (Attribute.lower_pathBelow _ _).symm⟩

/-- **A part that is found is a part**, of a longer path. -/
theorem DeclaresAt.exists_part (hd : schema.diagram.IsIndexed)
    (h : schema.DeclaresAt above owner parent a) {n : AttributeNode}
    (hpath : path ∈ (a.node above owner parent).children)
    (hn : schema.diagram.attributeAt path = .ok n) : ∃ b ∈ a.shownParts,
      n = b.node (a.pathBelow above) owner (some (a.pathBelow above)) ∧
        (a.pathBelow above).length < n.path.length := by
  obtain ⟨m, hm, hat⟩ := exists_of_mem_left (mapM_eq_ok.mp (h.mapM_children hd)) hpath
  obtain ⟨b, hb, rfl⟩ := List.mem_map.mp hm
  obtain rfl := Except.ok.inj (hn.symm.trans hat)
  exact ⟨b, hb, rfl, (h.part hb).length_lt⟩

end EntityLayout.SchemaDecl

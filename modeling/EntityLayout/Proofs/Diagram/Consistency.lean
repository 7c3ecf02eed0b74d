/-
# A diagram says everything twice and never differently

An owner lists its attributes, an attribute names its owner; a composite attribute lists its
parts, a part names the attribute around it; and edges say all of this once more.

* `Node.links`: the edges that go with a node.
* `Diagram.IsConsistent`: **lists, references and edges agree**, and nodes are found by path.
* `Diagram.isConsistent_ofDecl`: every diagram of a schema is consistent, and its nodes are the
  declared ones.
-/
import EntityLayout.Proofs.Diagram.Declared
import Mathlib.Data.List.Perm.Basic

namespace EntityLayout

open Attribute (nodesOf nodes_eq nodesOf_eq_flatMap)

/-! ## 1. Consistency -/

/-- The edge to an attribute: from the attribute around it, or else from its owner. -/
def AttributeNode.link (a : AttributeNode) : Edge :=
  match a.parent with
  | none => ⟨.hasAttribute, a.owner, a.path⟩
  | some p => ⟨.hasPart, p, a.path⟩

/-- The two edges of a relationship. -/
def RelationshipNode.links (r : RelationshipNode) : List Edge :=
  [⟨.relates, r.path, r.first⟩, ⟨.relates, r.path, r.second⟩]

/-- The edges that go with a node: that of an entity to its parent, those of a relationship to
its two entities, and the one to an attribute. -/
def Node.links : Node → List Edge
  | .entity e => (e.parent.map fun p => ⟨.dependsOn, e.path, p⟩).toList
  | .relationship r => r.links
  | .attr a => [a.link]

namespace Diagram

/-- The attributes in order. -/
def attributes (d : Diagram) : List AttributeNode := d.nodes.filterMap Node.attr?

/-- **Lists, references and edges agree.** -/
structure IsConsistent (d : Diagram) : Prop where
  /-- no two nodes share a path -/
  distinct : d.paths.Nodup
  /-- a node is found under its path -/
  found : ∀ n ∈ d.nodes, d.nodeAt n.path = .ok n
  /-- an owner lists the attributes that name it, in their order -/
  owned : ∀ n ∈ d.nodes, ∀ paths ∈ n.owned?,
    paths = (d.attributes.filter (·.owner = n.path)).map AttributeNode.path
  /-- what an attribute names as its owner is one -/
  owner : ∀ a ∈ d.attributes, ∃ n ∈ d.nodes, n.path = a.owner ∧ n.owned?.isSome
  /-- an attribute lists the attributes that name it as the one around them, in their order -/
  parts : ∀ a ∈ d.attributes,
    a.children = (d.attributes.filter (·.parent = some a.path)).map AttributeNode.path
  /-- the attribute around another comes before it and has the same owner -/
  within : ∀ a ∈ d.attributes, ∀ p ∈ a.parent, ∃ b,
    [.attr b, .attr a].Sublist d.nodes ∧ b.path = p ∧ b.owner = a.owner
  /-- weak entities and subclasses have a parent, which is an entity -/
  parents : ∀ e, .entity e ∈ d.nodes → (e.parent.isSome ↔ e.kind ≠ .regular) ∧
    ∀ p ∈ e.parent, ∃ q, .entity q ∈ d.nodes ∧ q.path = p
  /-- the edges are those that go with the nodes -/
  linked : d.edges.Perm (d.nodes.flatMap Node.links)
  /-- the edges of a relationship go to its first and then to its second entity -/
  related : ∀ r, .relationship r ∈ d.nodes →
    d.edges.filter (fun e => e.kind = .relates ∧ e.source = r.path) = r.links
  /-- and these two entities are its ends -/
  ends : ∀ r, .relationship r ∈ d.nodes → ∃ e₁ e₂, d.endpoints r.path = .ok (e₁, e₂) ∧
    e₁.path = r.first ∧ e₂.path = r.second

variable {d : Diagram}

theorem mem_attributes {a : AttributeNode} : a ∈ d.attributes ↔ .attr a ∈ d.nodes :=
  Node.mem_filterMap_attr?

theorem attributes_sublist_of {as : List AttributeNode} (h : (as.map Node.attr).Sublist d.nodes) :
    as.Sublist d.attributes := by
  have hall : (as.map Node.attr).filterMap Node.attr? = as := by
    rw [List.filterMap_map]
    exact List.filterMap_some
  rw [← hall]
  exact h.filterMap Node.attr?

/-! ## 2. Lists of attributes -/

section

variable (hd : d.IsIndexed)

include hd

theorem eq_of_attribute_path {a b : AttributeNode} (ha : a ∈ d.attributes) (hb : b ∈ d.attributes)
    (hpath : a.path = b.path) : a = b :=
  Node.attr.inj (hd.eq_of_path (mem_attributes.mp ha) (mem_attributes.mp hb) hpath)

theorem nodup_attributes : d.attributes.Nodup := by
  have hnodes : d.nodes.Nodup := List.Nodup.of_map _ hd.nodup
  refine hnodes.filterMap fun m n a hm hn => ?_
  cases m <;> cases n <;> simp_all [Node.attr?]

/-- Attributes that stand in order and are those with a property are all that have it. -/
theorem listed_eq {p : AttributeNode → Prop} [DecidablePred p] {as : List AttributeNode}
    (hsub : (as.map Node.attr).Sublist d.nodes)
    (hp : ∀ a ∈ d.attributes, p a ↔ a.path ∈ as.map AttributeNode.path) :
    as.map AttributeNode.path = (d.attributes.filter p).map AttributeNode.path := by
  have has := attributes_sublist_of hsub
  have hnodup := nodup_attributes hd
  have hmem : ∀ a, a ∈ as ↔ a ∈ d.attributes.filter p := by
    intro a
    rw [List.mem_filter, decide_eq_true_eq]
    constructor
    · exact fun ha => ⟨has.subset ha, (hp a (has.subset ha)).mpr (List.mem_map_of_mem ha)⟩
    · rintro ⟨ha, hpa⟩
      obtain ⟨b, hb, hpath⟩ := List.mem_map.mp ((hp a ha).mp hpa)
      exact eq_of_attribute_path hd (has.subset hb) ha hpath ▸ hb
  have hperm := (List.perm_ext_iff_of_nodup (hnodup.sublist has) (hnodup.filter _)).mpr hmem
  rw [(hnodup.perm_iff_eq_of_sublist has List.filter_sublist).mp hperm]

end

end Diagram

namespace SchemaDecl.IsWellFormed

variable {schema : SchemaDecl} (h : schema.IsWellFormed)

include h

/-- **An owner lists the attributes that name it.** -/
theorem owned_eq {n : Node} (hn : n ∈ schema.diagram.nodes) {paths : List String}
    (hpaths : n.owned? = some paths) :
    paths = (schema.diagram.attributes.filter (·.owner = n.path)).map AttributeNode.path := by
  obtain ⟨as, hdeclares, rfl⟩ := exists_declares_of_owned hn hpaths
  refine Diagram.listed_eq h.isIndexed hdeclares.sublist fun a ha => ⟨?_, fun hlisted => ?_⟩
  · intro howner
    obtain ⟨as', hdeclares', hmem⟩ := exists_declares (Diagram.mem_attributes.mp ha)
    obtain ⟨m, hm, hpath, howned⟩ := hdeclares'.exists_owner
    obtain rfl := h.isIndexed.eq_of_path hm hn (hpath.trans howner)
    rw [hpath] at hpaths
    rw [hpath, Option.some.inj (hpaths.symm.trans howned)]
    exact List.mem_map_of_mem hmem
  · obtain ⟨b, hb, hpath⟩ := List.mem_map.mp hlisted
    have hb' := hdeclares.sublist.subset (List.mem_map_of_mem hb)
    obtain rfl := Diagram.eq_of_attribute_path h.isIndexed (Diagram.mem_attributes.mpr hb') ha hpath
    exact owner_of_mem_nodesOf hb

/-- **An attribute lists the attributes that name it as the one around them.** -/
theorem children_eq {a : AttributeNode} (ha : a ∈ schema.diagram.attributes) :
    a.children = (schema.diagram.attributes.filter (·.parent = some a.path)).map
      AttributeNode.path := by
  obtain ⟨above, parent, x, hx, hax⟩ := exists_declaresAt (Diagram.mem_attributes.mp ha)
  have hchildren : a.children = (x.shownParts.map (Attribute.node (x.pathBelow above) a.owner
      (some (x.pathBelow above)))).map AttributeNode.path := by
    rw [List.map_map, hax]
    rfl
  have hsub : ((x.shownParts.map (Attribute.node (x.pathBelow above) a.owner
      (some (x.pathBelow above)))).map Node.attr).Sublist schema.diagram.nodes := by
    refine .trans (.map Node.attr ?_) hx.sublist
    rw [nodes_eq, nodesOf_eq_flatMap, List.map_eq_flatMap]
    refine .trans (.flatMap_right _ fun b _ => ?_) (List.sublist_cons_self _ _)
    exact List.singleton_sublist.mpr (b.node_mem_nodes _ _ _)
  rw [hchildren]
  refine Diagram.listed_eq h.isIndexed hsub fun c hc => ⟨?_, fun hlisted => ?_⟩
  · intro hparent
    obtain ⟨above', parent', y, hy, hcy⟩ := exists_declaresAt (Diagram.mem_attributes.mp hc)
    rw [hcy] at hparent
    cases hy with
    | own _ _ => exact nomatch hparent
    | @part above' _ parent' z _ hz hyz =>
      -- the attribute that `c` is a part of has the path of `a`, so it is `a`
      have hpath : z.pathBelow above' = a.path := Option.some.inj hparent
      have hza := Diagram.eq_of_attribute_path h.isIndexed (Diagram.mem_attributes.mpr hz.mem_nodes)
        ha hpath
      rw [← hchildren, ← hza, hcy]
      exact List.mem_map_of_mem hyz
  · obtain ⟨b, hb, hpath⟩ := List.mem_map.mp hlisted
    have hb' := hsub.subset (List.mem_map_of_mem hb)
    obtain rfl := Diagram.eq_of_attribute_path h.isIndexed (Diagram.mem_attributes.mpr hb') hc hpath
    obtain ⟨y, -, rfl⟩ := List.mem_map.mp hb
    rw [hax]
    rfl

omit h in
/-- **The attribute around another comes before it and has the same owner.** -/
theorem exists_around {a : AttributeNode} (ha : a ∈ schema.diagram.attributes) {p : String}
    (hp : a.parent = some p) : ∃ b, [.attr b, .attr a].Sublist schema.diagram.nodes ∧
      b.path = p ∧ b.owner = a.owner := by
  obtain ⟨above, parent, x, hx, hax⟩ := exists_declaresAt (Diagram.mem_attributes.mp ha)
  rw [hax] at hp
  cases hx with
  | own _ _ => exact nomatch hp
  | @part above _ parent z _ hz hxz =>
    refine ⟨z.node above a.owner parent, ?_, Option.some.inj hp, rfl⟩
    rw [hax]
    exact hz.part_sublist hxz

end SchemaDecl.IsWellFormed

/-! ## 3. Edges -/

/-- The edges to an attribute and its parts go with their nodes. -/
theorem Attribute.map_link_nodes {owner : String} : ∀ {a : Attribute} {kind : EdgeKind}
    {above : String} {parent : Option String}, (∀ b : Attribute,
      (b.node above owner parent).link = ⟨kind, above, b.pathBelow above⟩) →
        (a.nodes above owner parent).map AttributeNode.link = a.edges kind above := by
  intro a
  induction a using Attribute.induction with
  | step a ih =>
    intro kind above parent hlink
    rw [nodes_eq, edges_eq, List.map_cons, hlink a, nodesOf_eq_flatMap, edgesOf_eq_flatMap,
      List.map_flatMap]
    exact congrArg (_ :: ·) (List.flatMap_congr fun b hb => ih b (shownParts_subset hb) fun _ => rfl)

theorem Attribute.map_link_nodesOf (path : String) (as : List Attribute) :
    (nodesOf path path none as).map AttributeNode.link = edgesOf .hasAttribute path as := by
  rw [nodesOf_eq_flatMap, edgesOf_eq_flatMap, List.map_flatMap]
  exact List.flatMap_congr fun a _ => map_link_nodes fun _ => rfl

theorem AttributeNode.kind_link_ne (a : AttributeNode) : a.link.kind ≠ .relates := by
  unfold link
  split <;> exact nofun

/-- The edges that go with attributes are those to them. -/
theorem flatMap_links_attributes (path : String) (as : List Attribute) :
    ((nodesOf path path none as).map Node.attr).flatMap Node.links =
      Attribute.edgesOf .hasAttribute path as := by
  rw [List.flatMap_map, ← Attribute.map_link_nodesOf, List.map_eq_flatMap]
  rfl

/-- No edge to an attribute relates entities. -/
theorem filter_edgesOf_eq_nil (source path : String) (as : List Attribute) :
    (Attribute.edgesOf .hasAttribute path as).filter
      (fun e => e.kind = .relates ∧ e.source = source) = [] := by
  rw [← Attribute.map_link_nodesOf, List.filter_eq_nil_iff]
  intro e he
  obtain ⟨a, -, rfl⟩ := List.mem_map.mp he
  simp [a.kind_link_ne]

/-- Related entities are found at the edges of the relationship. -/
theorem Diagram.related_eq (d : Diagram) (path : String) : d.related path =
    (d.edges.filter fun e => e.kind = .relates ∧ e.source = path).filterMap fun e =>
      (d.nodes.find? (·.path = e.target)).bind Node.entity? := by
  rw [related, List.filterMap_filter]
  simp only [decide_eq_true_eq]

/-- What only one element of a list contributes to is what this element contributes. -/
theorem flatMap_eq_of_nodup {α β : Type} {key : α → String} {xs : List α} {x : α} {f : α → List β}
    (hn : (xs.map key).Nodup) (hx : x ∈ xs) (hf : ∀ y ∈ xs, key y ≠ key x → f y = []) :
    xs.flatMap f = f x := by
  obtain ⟨before, after, rfl⟩ := List.append_of_mem hx
  rw [List.map_append, List.map_cons, List.nodup_append, List.nodup_cons] at hn
  obtain ⟨-, ⟨hafter, -⟩, hbefore⟩ := hn
  rw [List.flatMap_append, List.flatMap_cons, List.flatMap_eq_nil_iff.mpr,
    List.flatMap_eq_nil_iff.mpr, List.append_nil, List.nil_append]
  · intro y hy
    exact hf y (by simp [hy]) fun e => hafter (e ▸ List.mem_map_of_mem hy)
  · intro y hy
    exact hf y (by simp [hy]) (hbefore _ (List.mem_map_of_mem hy) _ List.mem_cons_self)

namespace SchemaDecl

variable {schema : SchemaDecl}

/-- **The edges are those that go with the nodes.** -/
theorem perm_links : schema.diagram.edges.Perm (schema.diagram.nodes.flatMap Node.links) := by
  rw [diagram, List.flatMap_append, List.flatMap_assoc, List.flatMap_assoc]
  refine (List.Perm.flatMap_left _ fun e _ => ?_).append (List.Perm.flatMap_left _ fun r _ => ?_)
  · rw [EntityDecl.nodes, List.flatMap_cons, EntityDecl.attributeNodes, flatMap_links_attributes]
    exact List.perm_append_comm
  · rw [RelationshipDecl.nodes, List.flatMap_cons, RelationshipDecl.attributeNodes,
      flatMap_links_attributes]
    exact List.perm_append_comm

namespace IsWellFormed

variable (h : schema.IsWellFormed)

include h

theorem nodup_relationships : (schema.relationships.map RelationshipDecl.path).Nodup := by
  have hsub : (schema.relationships.map fun r => Node.relationship r.node).Sublist
      schema.diagram.nodes := by
    refine .trans ?_ (List.sublist_append_right _ _)
    rw [List.map_eq_flatMap]
    exact .flatMap_right _ fun r _ => List.singleton_sublist.mpr List.mem_cons_self
  have hnodup := h.nodup.sublist (hsub.map Node.path)
  rwa [List.map_map] at hnodup

/-- **The edges of a relationship go to its first and then to its second entity.** -/
theorem filter_edges_eq {r : RelationshipDecl} (hr : r ∈ schema.relationships) :
    schema.diagram.edges.filter (fun e => e.kind = .relates ∧ e.source = r.path) =
      r.node.links := by
  have hentities : (schema.entities.flatMap EntityDecl.edges).filter
      (fun e => e.kind = .relates ∧ e.source = r.path) = [] := by
    rw [List.filter_flatMap, List.flatMap_eq_nil_iff]
    intro e _
    rw [EntityDecl.edges, List.filter_append, filter_edgesOf_eq_nil]
    cases e.parentPath <;> rfl
  have hown : ∀ r' : RelationshipDecl, r'.edges.filter
      (fun e => e.kind = .relates ∧ e.source = r.path) =
        if r'.path = r.path then r'.node.links else [] := by
    intro r'
    rw [RelationshipDecl.edges, List.filter_append, filter_edgesOf_eq_nil, List.nil_append]
    split <;> simp_all [RelationshipNode.links, RelationshipDecl.node]
  rw [diagram, List.filter_append, hentities, List.nil_append, List.filter_flatMap,
    flatMap_eq_of_nodup h.nodup_relationships hr, hown, if_pos rfl]
  intro r' _ hne
  rw [hown, if_neg hne]

/-- **The ends of a relationship** are its two entities. -/
theorem exists_ends {r : RelationshipDecl} (hr : r ∈ schema.relationships) :
    ∃ e₁ ∈ schema.entities, ∃ e₂ ∈ schema.entities,
      schema.diagram.endpoints r.path = .ok (e₁.node, e₂.node) ∧ e₁.path = r.firstPath ∧
        e₂.path = r.secondPath := by
  obtain ⟨e₁, he₁, hp₁⟩ := h.first r hr
  obtain ⟨e₂, he₂, hp₂⟩ := h.second r hr
  have hfind : ∀ {e : EntityDecl} {p : String}, e ∈ schema.entities → e.path = p →
      schema.diagram.nodes.find? (fun n => n.path = p) = some (.entity e.node) := fun he hp =>
    (Diagram.find?_eq_some_of_nodup h.nodup).mpr ⟨entity_mem_nodes he, hp⟩
  have hrelated : schema.diagram.related r.path = [e₁.node, e₂.node] := by
    rw [Diagram.related_eq, h.filter_edges_eq hr]
    simp [RelationshipNode.links, RelationshipDecl.node, hfind he₁ hp₁, hfind he₂ hp₂, Node.entity?]
  have hat : schema.diagram.relationshipAt r.path = .ok r.node :=
    h.isIndexed.relationshipAt_eq_ok.mpr ⟨relationship_mem_nodes hr, (Text.lower_lower _).symm⟩
  refine ⟨e₁, he₁, e₂, he₂, ?_, hp₁, hp₂⟩
  rw [Diagram.endpoints, hat, ok_bind, RelationshipDecl.path_node, hrelated]
  exact if_pos ⟨hp₁, hp₂⟩

theorem parent_isSome_iff {e : EntityDecl} (he : e ∈ schema.entities) :
    e.parentPath.isSome ↔ e.kind ≠ .regular := by
  constructor
  · intro hparent
    obtain ⟨p, hp⟩ := Option.isSome_iff_exists.mp hparent
    exact EntityDecl.kind_ne_regular hp
  · intro hkind
    obtain ⟨before, after, hsplit⟩ := List.append_of_mem he
    obtain ⟨p, -, hpath⟩ := h.parents before e after hsplit hkind
    rw [hpath]
    rfl

/-! ## 4. Every diagram of a schema -/

theorem isConsistent : schema.diagram.IsConsistent where
  distinct := h.nodup
  found := fun n hn => Diagram.nodeAt_eq_ok_of_mem h.isIndexed hn
  owned := fun n hn paths hpaths => h.owned_eq hn hpaths
  owner := by
    intro a ha
    obtain ⟨as, hdeclares, -⟩ := exists_declares (Diagram.mem_attributes.mp ha)
    obtain ⟨n, hn, hpath, howned⟩ := hdeclares.exists_owner
    exact ⟨n, hn, hpath, by rw [howned]; rfl⟩
  parts := fun a ha => h.children_eq ha
  within := fun a ha p hp => exists_around ha hp
  parents := by
    intro e he
    obtain ⟨decl, hdecl, rfl⟩ := entity_mem_nodes_iff.mp he
    refine ⟨h.parent_isSome_iff hdecl, fun p hp => ?_⟩
    obtain ⟨q, hq, hpath⟩ := h.exists_parent hdecl hp
    exact ⟨q.node, entity_mem_nodes hq, hpath⟩
  linked := perm_links
  related := by
    intro r hr
    obtain ⟨decl, hdecl, rfl⟩ := relationship_mem_nodes_iff.mp hr
    exact h.filter_edges_eq hdecl
  ends := by
    intro r hr
    obtain ⟨decl, hdecl, rfl⟩ := relationship_mem_nodes_iff.mp hr
    obtain ⟨e₁, -, e₂, -, hends, hfirst, hsecond⟩ := h.exists_ends hdecl
    exact ⟨e₁.node, e₂.node, hends, hfirst, hsecond⟩

end IsWellFormed

end SchemaDecl

/-- **Every diagram of a schema is consistent**, and what it has for the declarations are their
nodes, which list the attributes as they are declared, parts right behind the whole. -/
theorem Diagram.isConsistent_ofDecl {schema : SchemaDecl} {d : Diagram}
    (h : ofDecl schema = .ok d) : d.IsConsistent ∧
      (∀ e ∈ schema.entities, d.entityAt e.name = .ok e.node) ∧
        ∀ r ∈ schema.relationships, d.relationshipAt r.name = .ok r.node := by
  obtain ⟨hschema, rfl⟩ := ofDecl_eq_ok.mp h
  exact ⟨hschema.isConsistent,
    fun e he => hschema.isIndexed.entityAt_eq_ok.mpr ⟨SchemaDecl.entity_mem_nodes he, rfl⟩,
    fun r hr => hschema.isIndexed.relationshipAt_eq_ok.mpr
      ⟨SchemaDecl.relationship_mem_nodes hr, rfl⟩⟩

/-- Buildings at a place, which is a city and a street with a number. -/
def EntityDecl.building : EntityDecl :=
  ⟨"Building", .regular, none, [⟨"building_id", .integer, true, false, false, []⟩,
    ⟨"Place", .composite, false, false, false, [⟨"city", .varchar, false, false, false, []⟩,
      ⟨"street", .composite, false, false, false,
        [⟨"number", .integer, false, false, false, []⟩]⟩]⟩]⟩

/-- Rooms of a building, which adjoin each other. -/
def SchemaDecl.rooms : SchemaDecl where
  entities := [.building,
    ⟨"Room", .weak, some "Building", [⟨"floor", .integer, false, true, false, []⟩]⟩]
  relationships := [⟨"Adjoins", ⟨"Room", some "left"⟩, ⟨"Room", some "right"⟩,
    [⟨"door", .varchar, false, false, false, []⟩]⟩]

/-- The diagram of rooms, with a weak entity, parts of parts and a relationship between an entity
and itself. -/
theorem Diagram.isConsistent_rooms : ∃ d, ofDecl .rooms = .ok d ∧ d.IsConsistent ∧
    d.entityAt "Building" = .ok ⟨"Building", "building", .regular, none, ["building.building_id",
      "building.place", "building.place.city", "building.place.street",
      "building.place.street.number"]⟩ := by
  obtain ⟨d, hd⟩ := exists_of_isOk (show (ofDecl .rooms).isOk = true by decide +kernel)
  obtain ⟨hconsistent, hentities, -⟩ := isConsistent_ofDecl hd
  have hnode : EntityDecl.building.node = ⟨"Building", "building", .regular, none,
      ["building.building_id", "building.place", "building.place.city", "building.place.street",
        "building.place.street.number"]⟩ := by decide +kernel
  exact ⟨d, hd, hconsistent, hnode ▸ hentities .building List.mem_cons_self⟩

end EntityLayout

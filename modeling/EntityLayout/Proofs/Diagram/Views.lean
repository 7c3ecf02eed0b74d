/-
# What the diagram of a schema answers

The diagram of a well-formed schema gives the declarations back.

* `IsWellFormed.isIndexed`: look-ups are exact.
* `IsWellFormed.topLevel_entity`, `IsWellFormed.topLevel_relationship`: the attributes of a
  declaration that are no parts of others are the declared ones.
* `IsWellFormed.own_entity`, `IsWellFormed.own_relationship`: as trees, too.
-/
import EntityLayout.Proofs.Diagram.Building
import EntityLayout.Structure
import Mathlib.Data.List.Flatten

namespace EntityLayout

/-! ## 1. Attributes as trees -/

namespace Attribute

/-- Parts have the attribute around them as parent, so among the nodes of attributes those
without a parent are the attributes themselves. -/
theorem filter_nodesOf_none (above owner : String) (as : List Attribute) :
    (nodesOf above owner none as).filter (fun n => n.parent.isNone) =
      as.map (node above owner none) := by
  have hparts : ∀ a : Attribute, ∀ above owner p, ∀ n ∈ a.nodes above owner (some p),
      n.parent.isNone = false := by
    intro a
    induction a using Attribute.induction with
    | step a ih =>
      intro above owner p n hn
      rcases mem_nodes_iff.mp hn with rfl | ⟨b, hb, hn⟩
      · rfl
      · exact ih b (shownParts_subset hb) _ _ _ n hn
  rw [nodesOf_eq_flatMap, List.filter_flatMap, List.map_eq_flatMap]
  congr 1
  funext a
  have hrest : (nodesOf (a.pathBelow above) owner (some (a.pathBelow above))
      a.shownParts).filter (fun n => n.parent.isNone) = [] := by
    rw [List.filter_eq_nil_iff, nodesOf_eq_flatMap]
    intro n hn
    obtain ⟨b, -, hn⟩ := List.mem_flatMap.mp hn
    simp [hparts b _ _ _ n hn]
  rw [nodes_eq, List.filter_cons_of_pos (by simp [node]), hrest]

end Attribute

namespace Structures

open Attribute (nodesOf nodesOf_eq_flatMap nodes_eq)

variable {d : Diagram}

/-- Parts at given paths are turned into trees one by one. -/
theorem treesBy_eq_ok {tree : AttributeNode → Except DiagramError Attribute}
    (node : Attribute → AttributeNode) (h : d.IsIndexed) : ∀ {as : List Attribute},
      (∀ a ∈ as, .attr (node a) ∈ d.nodes ∧ tree (node a) = .ok a.logical) →
        treesBy d tree (as.map fun a => (node a).path) = .ok (as.map Attribute.logical)
  | [], _ => rfl
  | a :: as, hall => by
    obtain ⟨hmem, htree⟩ := hall a List.mem_cons_self
    have hrest := treesBy_eq_ok node h fun b hb => hall b (List.mem_cons_of_mem _ hb)
    have hat : d.attributeAt (node a).path = .ok (node a) :=
      h.attributeAt_eq_ok.mpr ⟨hmem, (h.lower_path hmem).symm⟩
    rw [List.map_cons, treesBy, hat, ok_bind, htree, ok_bind, hrest]
    rfl

/-- **The tree below the node of an attribute is the attribute**, if there is a level for
each of its nodes. -/
theorem treeWithin_node (h : d.IsIndexed) : ∀ (a : Attribute) (above owner : String)
    (parent : Option String) (depth : Nat), (a.nodes above owner parent).length ≤ depth →
      (∀ n ∈ a.nodes above owner parent, .attr n ∈ d.nodes) →
        treeWithin d depth (a.node above owner parent) = .ok a.logical := by
  intro a
  induction a using Attribute.induction with
  | step a ih =>
    intro above owner parent depth hdepth hmem
    rw [nodes_eq, nodesOf_eq_flatMap] at hdepth hmem
    obtain ⟨depth, rfl⟩ : ∃ m, depth = m + 1 :=
      ⟨depth - 1, by rw [List.length_cons] at hdepth; omega⟩
    have hparts : treesBy d (treeWithin d depth) (a.node above owner parent).children =
        .ok (a.shownParts.map Attribute.logical) := by
      refine treesBy_eq_ok (Attribute.node (a.pathBelow above) owner (some (a.pathBelow above))) h
        fun b hb => ?_
      have hsub : ∀ n ∈ b.nodes (a.pathBelow above) owner (some (a.pathBelow above)),
          .attr n ∈ d.nodes := fun n hn =>
        hmem n (List.mem_cons_of_mem _ (List.mem_flatMap.mpr ⟨b, hb, hn⟩))
      have hlen : (b.nodes (a.pathBelow above) owner (some (a.pathBelow above))).length ≤
          depth := by
        have hlen := ((List.singleton_sublist.mpr hb).flatMap
          (Attribute.nodes (a.pathBelow above) owner (some (a.pathBelow above)))).length_le
        rw [List.flatMap_singleton] at hlen
        rw [List.length_cons] at hdepth
        omega
      refine ⟨hsub _ ?_, ih b (Attribute.shownParts_subset hb) _ _ _ depth hlen hsub⟩
      rw [nodes_eq]
      exact List.mem_cons_self
    rw [treeWithin, hparts, ok_bind, Attribute.logical_eq]
    rfl

end Structures

/-- The attributes that an entity or relationship lists. -/
def Node.owned? : Node → Option (List String)
  | .entity e => some e.attributes
  | .relationship r => some r.attributes
  | .attr _ => none

theorem Diagram.topLevel_eq {d : Diagram} {path : String} {owner : Node} {owned : List String}
    (h : d.nodeAt path = .ok owner) (howned : owner.owned? = some owned) :
    d.topLevel path =
      owned.mapM d.attributeAt >>= fun as => .ok (as.filter fun a => a.parent.isNone) := by
  rw [topLevel, h, ok_bind]
  cases owner with
  | entity e => cases howned; rfl
  | relationship r => cases howned; rfl
  | attr a => cases howned

namespace Structures

open Attribute (nodesOf nodesOf_eq_flatMap)

variable {d : Diagram} {path : String} {owner : Node} {as : List Attribute}

/-- The attributes that an owner lists are found. -/
theorem mapM_attributeAt_of_sublist (h : d.IsIndexed)
    (hsub : ((nodesOf path path none as).map Node.attr).Sublist d.nodes) :
    ((nodesOf path path none as).map AttributeNode.path).mapM d.attributeAt =
      .ok (nodesOf path path none as) := by
  rw [mapM_eq_ok, List.forall₂_map_left_iff, List.forall₂_same]
  intro n hn
  have hmem : .attr n ∈ d.nodes := hsub.subset (List.mem_map_of_mem hn)
  exact h.attributeAt_eq_ok.mpr ⟨hmem, (h.lower_path hmem).symm⟩

/-- The attributes of an owner that are no parts of others. -/
theorem topLevel_of_sublist (h : d.IsIndexed) (howner : d.nodeAt path = .ok owner)
    (howned : owner.owned? = some ((nodesOf path path none as).map AttributeNode.path))
    (hsub : ((nodesOf path path none as).map Node.attr).Sublist d.nodes) :
    d.topLevel path = .ok (as.map (Attribute.node path path none)) := by
  rw [Diagram.topLevel_eq howner howned, mapM_attributeAt_of_sublist h hsub, ok_bind,
    Attribute.filter_nodesOf_none]

/-- The attributes of an owner as trees. -/
theorem own_of_sublist (h : d.IsIndexed) (howner : d.nodeAt path = .ok owner)
    (howned : owner.owned? = some ((nodesOf path path none as).map AttributeNode.path))
    (hsub : ((nodesOf path path none as).map Node.attr).Sublist d.nodes) :
    own d path = .ok (as.map Attribute.logical) := by
  rw [own, topLevel_of_sublist h howner howned hsub, ok_bind, trees, mapM_eq_ok,
    List.forall₂_map_left_iff, List.forall₂_map_right_iff, List.forall₂_same]
  intro a ha
  have hsingle := (List.singleton_sublist.mpr ha).flatMap (Attribute.nodes path path none)
  rw [List.flatMap_singleton, ← nodesOf_eq_flatMap] at hsingle
  refine treeWithin_node h a path path none _ ?_ fun n hn =>
    hsub.subset (List.mem_map_of_mem (hsingle.subset hn))
  have hall := hsub.length_le
  rw [List.length_map] at hall
  exact Nat.le_succ_of_le (Nat.le_trans hsingle.length_le hall)

end Structures

/-! ## 2. Declarations -/

namespace SchemaDecl

variable {schema : SchemaDecl}

theorem entity_mem_nodes {e : EntityDecl} (he : e ∈ schema.entities) :
    .entity e.node ∈ schema.diagram.nodes :=
  List.mem_append_left _ (List.mem_flatMap.mpr ⟨e, he, List.mem_cons_self⟩)

theorem relationship_mem_nodes {r : RelationshipDecl} (hr : r ∈ schema.relationships) :
    .relationship r.node ∈ schema.diagram.nodes :=
  List.mem_append_right _ (List.mem_flatMap.mpr ⟨r, hr, List.mem_cons_self⟩)

theorem attributes_sublist {e : EntityDecl} (he : e ∈ schema.entities) :
    (e.attributeNodes.map Node.attr).Sublist schema.diagram.nodes := by
  have h := (List.singleton_sublist.mpr he).flatMap EntityDecl.nodes
  rw [List.flatMap_singleton] at h
  exact (List.sublist_cons_self _ _).trans (h.trans (List.sublist_append_left _ _))

theorem relationshipAttributes_sublist {r : RelationshipDecl} (hr : r ∈ schema.relationships) :
    (r.attributeNodes.map Node.attr).Sublist schema.diagram.nodes := by
  have h := (List.singleton_sublist.mpr hr).flatMap RelationshipDecl.nodes
  rw [List.flatMap_singleton] at h
  exact (List.sublist_cons_self _ _).trans (h.trans (List.sublist_append_right _ _))

/-- Every node is that of an entity, of a relationship, or of an attribute of one. -/
theorem mem_nodes {n : Node} : n ∈ schema.diagram.nodes ↔
    (∃ e ∈ schema.entities, n ∈ e.nodes) ∨ ∃ r ∈ schema.relationships, n ∈ r.nodes := by
  rw [diagram, List.mem_append, List.mem_flatMap, List.mem_flatMap]

theorem entity_mem_nodes_iff {e : EntityNode} :
    .entity e ∈ schema.diagram.nodes ↔ ∃ decl ∈ schema.entities, e = decl.node := by
  rw [mem_nodes]
  simp [EntityDecl.nodes, RelationshipDecl.nodes]

theorem relationship_mem_nodes_iff {r : RelationshipNode} :
    .relationship r ∈ schema.diagram.nodes ↔ ∃ decl ∈ schema.relationships, r = decl.node := by
  rw [mem_nodes]
  simp [EntityDecl.nodes, RelationshipDecl.nodes]

namespace IsWellFormed

variable (h : schema.IsWellFormed)

include h

theorem isIndexed : schema.diagram.IsIndexed where
  nodup := h.nodup
  lowered := by
    intro p hp
    obtain ⟨n, hn, rfl⟩ := Diagram.mem_paths.mp hp
    rcases mem_nodes.mp hn with ⟨e, -, hn⟩ | ⟨r, -, hn⟩
    · exact Diagram.lower_of_mem_entity hn
    · exact Diagram.lower_of_mem_relationship hn

theorem nodeAt_entity {e : EntityDecl} (he : e ∈ schema.entities) :
    schema.diagram.nodeAt e.path = .ok (.entity e.node) :=
  Diagram.nodeAt_eq_ok_of_mem h.isIndexed (n := .entity e.node) (entity_mem_nodes he)

theorem nodeAt_relationship {r : RelationshipDecl} (hr : r ∈ schema.relationships) :
    schema.diagram.nodeAt r.path = .ok (.relationship r.node) :=
  Diagram.nodeAt_eq_ok_of_mem h.isIndexed (n := .relationship r.node) (relationship_mem_nodes hr)

/-- **The attributes of an entity that are no parts are the declared ones.** -/
theorem topLevel_entity {e : EntityDecl} (he : e ∈ schema.entities) :
    schema.diagram.topLevel e.path = .ok (e.attributes.map (Attribute.node e.path e.path none)) :=
  Structures.topLevel_of_sublist h.isIndexed (h.nodeAt_entity he) rfl (attributes_sublist he)

/-- The attributes of an entity are listed unless it has none. -/
theorem attributesOf_eq_error {e : EntityDecl} (he : e ∈ schema.entities) {fault : DiagramError}
    (hfault : schema.diagram.attributesOf e.path = .error fault) :
    fault = .misuse e.path .noAttributes := by
  have hat : schema.diagram.entityAt e.path = .ok e.node :=
    h.isIndexed.entityAt_eq_ok.mpr ⟨entity_mem_nodes he, (Text.lower_lower _).symm⟩
  rw [Diagram.attributesOf, hat, ok_bind] at hfault
  split at hfault
  · exact (Except.error.inj hfault).symm
  · have hall : e.node.attributes.mapM schema.diagram.attributeAt = .ok _ :=
      Structures.mapM_attributeAt_of_sublist h.isIndexed (attributes_sublist he)
    exact nomatch hall.symm.trans hfault

/-- Where the attributes of an entity are listed, they are the declared ones and their parts. -/
theorem eq_attributeNodes_of_attributesOf {e : EntityDecl} (he : e ∈ schema.entities)
    {own : List AttributeNode} (hown : schema.diagram.attributesOf e.path = .ok own) :
    own = e.attributeNodes := by
  have hat : schema.diagram.entityAt e.path = .ok e.node :=
    h.isIndexed.entityAt_eq_ok.mpr ⟨entity_mem_nodes he, (Text.lower_lower _).symm⟩
  rw [Diagram.attributesOf, hat, ok_bind] at hown
  split at hown
  · exact nomatch hown
  · have hall : e.node.attributes.mapM schema.diagram.attributeAt = .ok _ :=
      Structures.mapM_attributeAt_of_sublist h.isIndexed (attributes_sublist he)
    exact Except.ok.inj (hown.symm.trans hall)

/-- **The attributes of an entity as trees are the declared ones.** -/
theorem own_entity {e : EntityDecl} (he : e ∈ schema.entities) :
    Structures.own schema.diagram e.path = .ok (e.attributes.map Attribute.logical) :=
  Structures.own_of_sublist h.isIndexed (h.nodeAt_entity he) rfl (attributes_sublist he)

theorem topLevel_relationship {r : RelationshipDecl} (hr : r ∈ schema.relationships) :
    schema.diagram.topLevel r.path = .ok (r.attributes.map (Attribute.node r.path r.path none)) :=
  Structures.topLevel_of_sublist h.isIndexed (h.nodeAt_relationship hr) rfl
    (relationshipAttributes_sublist hr)

theorem own_relationship {r : RelationshipDecl} (hr : r ∈ schema.relationships) :
    Structures.own schema.diagram r.path = .ok (r.attributes.map Attribute.logical) :=
  Structures.own_of_sublist h.isIndexed (h.nodeAt_relationship hr) rfl
    (relationshipAttributes_sublist hr)

end IsWellFormed

end SchemaDecl

end EntityLayout

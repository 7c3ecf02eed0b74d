/-
# The diagram of a schema, written down

What the diagram of a schema has to be, as a list that follows the declarations: every entity
with its attributes behind it, parts right behind the attribute they belong to, and after the
entities the relationships in the same way.

* `Attribute.nodes`, `Attribute.edges`: an attribute and its parts.
* `EntityDecl.node`, `RelationshipDecl.node`: the node of a declaration.
* `SchemaDecl.diagram`: all of it.
* `SchemaDecl.IsWellFormed`: which schemas have a diagram at all.
-/
import EntityLayout.Diagram.Build
import EntityLayout.Proofs.Attribute
import EntityLayout.Proofs.Text.Lower

namespace EntityLayout

@[simp] theorem Path.lower_below (above name : String) :
    Text.lower (Path.below above name) = Path.below above name := Text.lower_lower _

/-- Whether letters of ASCII are small or capital in a name does not matter to its path. -/
@[simp] theorem Path.below_asciiLower (above name : String) :
    Path.below above (Text.asciiLower name) = Path.below above name :=
  Text.lower_congr (by simp only [Text.asciiLower_append, Text.asciiLower_asciiLower])

/-- **A path goes on behind the one above it**, with a dot between them. -/
theorem Path.toList_below {above : String} (h : Text.lower above = above) (name : String) :
    (Path.below above name).toList =
      above.toList ++ '.' :: Text.lowerChars ('.' :: above.toList.reverse) name.toList := by
  have hsmall : ∀ c ∈ above.toList ++ ['.'], Text.IsSmall c := by
    intro c hc
    rcases List.mem_append.mp hc with hc | hc
    · exact Text.isSmall_of_lower_eq h c hc
    · rw [List.mem_singleton.mp hc]
      exact ⟨by decide +kernel, by decide⟩
  have hsplit : (above ++ "." ++ name).toList = (above.toList ++ ['.']) ++ name.toList := by
    simp only [String.toList_append]
    rfl
  rw [Path.below, Text.toList_lower, hsplit, Text.lowerChars_append_of_isSmall _ _ _ hsmall]
  simp

/-! ## 1. Attributes -/

namespace Attribute

mutual

/-- The attribute as queries see it: its name in small letters, and parts only where the type
is composite. -/
def logical : Attribute → Attribute
  | ⟨name, type, primaryKey, discriminator, multivalued, parts⟩ =>
    ⟨Text.lower name, type, primaryKey, discriminator, multivalued,
      if type.isComposite then logicalOf parts else []⟩

/-- Several attributes as queries see them. -/
def logicalOf : List Attribute → List Attribute
  | [] => []
  | a :: as => logical a :: logicalOf as

end

theorem logicalOf_eq_map : ∀ as : List Attribute, logicalOf as = as.map logical
  | [] => rfl
  | a :: as => by rw [logicalOf, logicalOf_eq_map as, List.map_cons]

/-- The path of an attribute below that of an owner or of the attribute around it. -/
def pathBelow (above : String) (a : Attribute) : String := Path.below above a.name

/-- The parts that a diagram has nodes for: those of a composite attribute. -/
def shownParts (a : Attribute) : List Attribute := if a.isComposite then a.parts else []

/-- The node of an attribute. -/
def node (above owner : String) (parent : Option String) (a : Attribute) : AttributeNode where
  name := a.name
  path := a.pathBelow above
  type := a.type
  multivalued := a.multivalued
  primaryKey := a.primaryKey
  discriminator := a.discriminator
  owner := owner
  parent := parent
  children := a.shownParts.map (pathBelow (a.pathBelow above))

@[simp] theorem path_node (above owner : String) (parent : Option String) (a : Attribute) :
    (a.node above owner parent).path = a.pathBelow above := rfl

mutual

/-- The nodes of an attribute and its parts. -/
def nodes (above owner : String) (parent : Option String) : Attribute → List AttributeNode
  | ⟨name, type, primaryKey, discriminator, multivalued, parts⟩ =>
    node above owner parent ⟨name, type, primaryKey, discriminator, multivalued, parts⟩ ::
      if type.isComposite then
        nodesOf (Path.below above name) owner (some (Path.below above name)) parts
      else []

/-- The nodes of several attributes. -/
def nodesOf (above owner : String) (parent : Option String) : List Attribute → List AttributeNode
  | [] => []
  | a :: as => nodes above owner parent a ++ nodesOf above owner parent as

end

mutual

/-- The edges to an attribute and to its parts. -/
def edges (kind : EdgeKind) (above : String) : Attribute → List Edge
  | ⟨name, type, _, _, _, parts⟩ =>
    ⟨kind, above, Path.below above name⟩ ::
      if type.isComposite then edgesOf .hasPart (Path.below above name) parts else []

/-- The edges to several attributes. -/
def edgesOf (kind : EdgeKind) (above : String) : List Attribute → List Edge
  | [] => []
  | a :: as => edges kind above a ++ edgesOf kind above as

end

theorem nodes_eq (above owner : String) (parent : Option String) (a : Attribute) :
    a.nodes above owner parent = a.node above owner parent ::
      nodesOf (a.pathBelow above) owner (some (a.pathBelow above)) a.shownParts := by
  obtain ⟨name, type, primaryKey, discriminator, multivalued, parts⟩ := a
  rw [nodes]
  cases h : type.isComposite <;> simp [shownParts, isComposite, pathBelow, nodesOf, h]

theorem logical_eq (a : Attribute) :
    a.logical = ⟨Text.lower a.name, a.type, a.primaryKey, a.discriminator, a.multivalued,
      a.shownParts.map logical⟩ := by
  obtain ⟨name, type, primaryKey, discriminator, multivalued, parts⟩ := a
  rw [logical, logicalOf_eq_map]
  cases h : type.isComposite <;> simp [shownParts, isComposite, h]

theorem name_logical (a : Attribute) : a.logical.name = Text.lower a.name := by
  rw [logical_eq]

theorem isComposite_logical (a : Attribute) : a.logical.isComposite = a.isComposite := by
  rw [logical_eq]
  rfl

theorem nodesOf_eq_flatMap (above owner : String) (parent : Option String) :
    ∀ as : List Attribute, nodesOf above owner parent as = as.flatMap (nodes above owner parent)
  | [] => rfl
  | a :: as => by rw [nodesOf, nodesOf_eq_flatMap above owner parent as, List.flatMap_cons]

theorem edgesOf_eq_flatMap (kind : EdgeKind) (above : String) :
    ∀ as : List Attribute, edgesOf kind above as = as.flatMap (edges kind above)
  | [] => rfl
  | a :: as => by rw [edgesOf, edgesOf_eq_flatMap kind above as, List.flatMap_cons]

theorem node_mem_nodes (above owner : String) (parent : Option String) (a : Attribute) :
    a.node above owner parent ∈ a.nodes above owner parent := by
  rw [nodes_eq]
  exact List.mem_cons_self

theorem mem_nodes_of_part {above owner : String} {parent : Option String} {a b : Attribute}
    {n : AttributeNode} (hb : b ∈ a.shownParts)
    (hn : n ∈ b.nodes (a.pathBelow above) owner (some (a.pathBelow above))) :
    n ∈ a.nodes above owner parent := by
  rw [nodes_eq, nodesOf_eq_flatMap]
  exact List.mem_cons_of_mem _ (List.mem_flatMap.mpr ⟨b, hb, hn⟩)

/-- A node of an attribute is its own or one of a part. -/
theorem mem_nodes_iff {above owner : String} {parent : Option String} {a : Attribute}
    {n : AttributeNode} : n ∈ a.nodes above owner parent ↔ n = a.node above owner parent ∨
      ∃ b ∈ a.shownParts, n ∈ b.nodes (a.pathBelow above) owner (some (a.pathBelow above)) := by
  rw [nodes_eq, List.mem_cons, nodesOf_eq_flatMap, List.mem_flatMap]

theorem edges_eq (kind : EdgeKind) (above : String) (a : Attribute) :
    a.edges kind above = ⟨kind, above, a.pathBelow above⟩ ::
      edgesOf .hasPart (a.pathBelow above) a.shownParts := by
  obtain ⟨name, type, primaryKey, discriminator, multivalued, parts⟩ := a
  rw [edges]
  cases h : type.isComposite <;> simp [shownParts, isComposite, pathBelow, edgesOf, h]

mutual

theorem lower_of_mem_nodes {above owner : String} {parent : Option String} : ∀ {a : Attribute}
    {n : AttributeNode}, n ∈ a.nodes above owner parent → Text.lower n.path = n.path
  | ⟨name, type, _, _, _, parts⟩, n, h => by
    rw [nodes, List.mem_cons] at h
    rcases h with rfl | h
    · exact Path.lower_below _ _
    · split at h
      · exact lower_of_mem_nodesOf h
      · exact absurd h List.not_mem_nil

/-- The paths of attributes are in small letters. -/
theorem lower_of_mem_nodesOf {above owner : String} {parent : Option String} :
    ∀ {as : List Attribute} {n : AttributeNode}, n ∈ nodesOf above owner parent as →
      Text.lower n.path = n.path
  | [], _, h => absurd h List.not_mem_nil
  | a :: as, n, h => by
    rw [nodesOf, List.mem_append] at h
    rcases h with h | h
    · exact lower_of_mem_nodes h
    · exact lower_of_mem_nodesOf h

end

theorem shownParts_subset {a b : Attribute} (h : b ∈ a.shownParts) : b ∈ a.parts := by
  unfold shownParts at h
  split at h
  · exact h
  · exact absurd h List.not_mem_nil

@[simp] theorem lower_pathBelow (above : String) (a : Attribute) :
    Text.lower (a.pathBelow above) = a.pathBelow above := Path.lower_below _ _

end Attribute

/-! ## 2. Entities -/

namespace EntityDecl

/-- The path of an entity. -/
def path (e : EntityDecl) : String := Text.lower e.name

/-- The path of the parent, where the kind of the entity calls for one. -/
def parentPath (e : EntityDecl) : Option String :=
  match e.kind with
  | .regular => none
  | _ => e.parent.map Text.lower

/-- The nodes of the attributes of an entity. -/
def attributeNodes (e : EntityDecl) : List AttributeNode :=
  Attribute.nodesOf e.path e.path none e.attributes

/-- The node of an entity. -/
def node (e : EntityDecl) : EntityNode :=
  ⟨e.name, e.path, e.kind, e.parentPath, e.attributeNodes.map AttributeNode.path⟩

theorem lower_name (e : EntityDecl) : Text.lower e.name = e.path := rfl

@[simp] theorem path_node (e : EntityDecl) : e.node.path = e.path := rfl

@[simp] theorem kind_node (e : EntityDecl) : e.node.kind = e.kind := rfl

theorem parent_node (e : EntityDecl) : e.node.parent = e.parentPath := rfl

/-- What has a parent is a weak entity or a subclass. -/
theorem kind_ne_regular {e : EntityDecl} {parent : String} (h : e.parentPath = some parent) :
    e.kind ≠ .regular := by
  intro hkind
  rw [parentPath, hkind] at h
  exact nomatch h

/-- An entity for which no attributes are declared lists none. -/
theorem attributes_node_eq_nil {e : EntityDecl} (h : e.attributes = []) : e.node.attributes = [] := by
  simp [node, attributeNodes, h, Attribute.nodesOf]

/-- The node of an entity and those of its attributes. -/
def nodes (e : EntityDecl) : List Node := .entity e.node :: e.attributeNodes.map .attr

/-- The edges to the attributes of an entity, and the one to its parent. -/
def edges (e : EntityDecl) : List Edge :=
  Attribute.edgesOf .hasAttribute e.path e.attributes
    ++ (e.parentPath.map fun p => ⟨.dependsOn, e.path, p⟩).toList

end EntityDecl

/-! ## 3. Relationships -/

namespace RelationshipDecl

/-- The path of a relationship. -/
def path (r : RelationshipDecl) : String := Text.lower r.name

/-- The path of the first entity. -/
def firstPath (r : RelationshipDecl) : String := Text.lower r.first.name

/-- The path of the second entity. -/
def secondPath (r : RelationshipDecl) : String := Text.lower r.second.name

/-- The two roles, if both are declared. -/
def roles (r : RelationshipDecl) : Option (String × String) :=
  match r.first.role, r.second.role with
  | some r₁, some r₂ => some (r₁, r₂)
  | _, _ => none

/-- The nodes of the attributes of a relationship. -/
def attributeNodes (r : RelationshipDecl) : List AttributeNode :=
  Attribute.nodesOf r.path r.path none r.attributes

/-- The node of a relationship. -/
def node (r : RelationshipDecl) : RelationshipNode :=
  ⟨r.name, r.path, r.firstPath, r.secondPath, r.roles,
    r.attributeNodes.map AttributeNode.path⟩

theorem lower_name (r : RelationshipDecl) : Text.lower r.name = r.path := rfl

@[simp] theorem path_node (r : RelationshipDecl) : r.node.path = r.path := rfl

theorem first_node (r : RelationshipDecl) : r.node.first = r.firstPath := rfl

theorem second_node (r : RelationshipDecl) : r.node.second = r.secondPath := rfl

/-- The node of a relationship and those of its attributes. -/
def nodes (r : RelationshipDecl) : List Node := .relationship r.node :: r.attributeNodes.map .attr

/-- The edges to the attributes of a relationship, and those to its two entities. -/
def edges (r : RelationshipDecl) : List Edge :=
  Attribute.edgesOf .hasAttribute r.path r.attributes
    ++ [⟨.relates, r.path, r.firstPath⟩, ⟨.relates, r.path, r.secondPath⟩]

end RelationshipDecl

/-! ## 4. Schemas -/

namespace SchemaDecl

/-- The diagram of a schema. -/
def diagram (s : SchemaDecl) : Diagram :=
  ⟨s.entities.flatMap EntityDecl.nodes ++ s.relationships.flatMap RelationshipDecl.nodes,
    s.entities.flatMap EntityDecl.edges ++ s.relationships.flatMap RelationshipDecl.edges⟩

/-- **The schemas that have a diagram.**  No path is taken twice; a weak entity or subclass
names an entity before it; a relationship names two entities and declares both roles or
neither. -/
structure IsWellFormed (s : SchemaDecl) : Prop where
  nodup : (s.diagram.nodes.map Node.path).Nodup
  parents : ∀ before e after, s.entities = before ++ e :: after → e.kind ≠ .regular →
    ∃ p ∈ before, e.parentPath = some p.path
  first : ∀ r ∈ s.relationships, ∃ e ∈ s.entities, e.path = r.firstPath
  second : ∀ r ∈ s.relationships, ∃ e ∈ s.entities, e.path = r.secondPath
  roles : ∀ r ∈ s.relationships, r.first.role.isSome = r.second.role.isSome

end SchemaDecl

end EntityLayout

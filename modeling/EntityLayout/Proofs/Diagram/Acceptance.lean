/-
# Which schemas are accepted

Whether a schema has a diagram is settled by the names in its declarations.  Here they are listed as
they are declared, without any diagram: every entity and relationship, and behind it its attributes,
the parts of a composite attribute right behind it and those of any other attribute not at all.

* `Attribute.pathsFrom`, `SchemaDecl.listing`: the names, each with what it is the name of.
* `SchemaDecl.IsCoherent`: what is asked of them.
* `Diagram.exists_ofDecl_iff`: **the schemas that are accepted**, and the nodes that they have.
-/
import EntityLayout.Proofs.Diagram.Building

namespace EntityLayout

/-! ## 1. The names in declarations -/

namespace Attribute

mutual

/-- The path of an attribute and those of its parts, as far as types are composite. -/
def pathsFrom (above : String) : Attribute → List String
  | ⟨name, type, _, _, _, parts⟩ =>
    Path.below above name ::
      if type = .composite then pathsFromEach (Path.below above name) parts else []

/-- The paths of several attributes and of their parts. -/
def pathsFromEach (above : String) : List Attribute → List String
  | [] => []
  | a :: as => pathsFrom above a ++ pathsFromEach above as

end

mutual

/-- The number of attributes that an attribute declares: itself, and its parts as far as types are
composite. -/
def reach : Attribute → Nat
  | ⟨_, type, _, _, _, parts⟩ => 1 + if type = .composite then reachOfEach parts else 0

/-- The number of attributes that several declare. -/
def reachOfEach : List Attribute → Nat
  | [] => 0
  | a :: as => reach a + reachOfEach as

end

theorem reachOfEach_append (bs : List Attribute) : ∀ as : List Attribute,
    reachOfEach (as ++ bs) = reachOfEach as + reachOfEach bs
  | [] => by rw [List.nil_append, reachOfEach, Nat.zero_add]
  | a :: as => by
    rw [List.cons_append, reachOfEach, reachOfEach, reachOfEach_append bs as, Nat.add_assoc]

mutual

theorem map_path_nodes (owner : String) : ∀ (a : Attribute) (above : String)
    (parent : Option String), (a.nodes above owner parent).map AttributeNode.path =
      a.pathsFrom above
  | ⟨name, type, primaryKey, discriminator, multivalued, parts⟩, above, parent => by
    rw [nodes, pathsFrom, List.map_cons]
    refine congrArg (_ :: ·) ?_
    simp only [AttributeType.isComposite, decide_eq_true_eq]
    split
    · exact map_path_nodesOf owner parts _ _
    · rfl

/-- **The nodes of attributes have the paths that are declared**, in order. -/
theorem map_path_nodesOf (owner : String) : ∀ (as : List Attribute) (above : String)
    (parent : Option String), (nodesOf above owner parent as).map AttributeNode.path =
      pathsFromEach above as
  | [], _, _ => rfl
  | a :: as, above, parent => by
    rw [nodesOf, pathsFromEach, List.map_append, map_path_nodes owner a above parent,
      map_path_nodesOf owner as above parent]

end

mutual

theorem length_pathsFrom : ∀ (a : Attribute) (above : String), (a.pathsFrom above).length = a.reach
  | ⟨name, type, primaryKey, discriminator, multivalued, parts⟩, above => by
    rw [pathsFrom, reach, List.length_cons, Nat.add_comm]
    refine congrArg (1 + ·) ?_
    split
    · exact length_pathsFromEach parts _
    · rfl

/-- There are as many paths as attributes. -/
theorem length_pathsFromEach : ∀ (as : List Attribute) (above : String),
    (pathsFromEach above as).length = reachOfEach as
  | [], _ => rfl
  | a :: as, above => by
    rw [pathsFromEach, reachOfEach, List.length_append, length_pathsFrom a above,
      length_pathsFromEach as above]

end

end Attribute

/-- An owner of attributes, and its attributes behind it. -/
def ownerListing (kind : NodeKind) (path : String) (as : List Attribute) :
    List (NodeKind × String) :=
  (kind, path) :: (Attribute.pathsFromEach path as).map fun p => (.attr, p)

namespace SchemaDecl

/-- The names that a schema declares, each with what it is the name of. -/
def listing (s : SchemaDecl) : List (NodeKind × String) :=
  (s.entities.flatMap fun e => ownerListing .entity (Text.lower e.name) e.attributes)
    ++ s.relationships.flatMap fun r => ownerListing .relationship (Text.lower r.name) r.attributes

/-- The number of attributes that a schema declares. -/
def reach (s : SchemaDecl) : Nat :=
  Attribute.reachOfEach (s.entities.flatMap EntityDecl.attributes)
    + Attribute.reachOfEach (s.relationships.flatMap RelationshipDecl.attributes)

/-- **The names in a schema fit together.** -/
structure IsCoherent (s : SchemaDecl) : Prop where
  /-- nothing is declared twice, not even as two different things -/
  distinct : (s.listing.map Prod.snd).Nodup
  /-- a weak entity or subclass names an entity before it -/
  parents : ∀ before e after, s.entities = before ++ e :: after → e.kind ≠ .regular →
    ∃ parent, e.parent = some parent ∧ ∃ p ∈ before, Text.lower p.name = Text.lower parent
  /-- a relationship names two entities -/
  ends : ∀ r ∈ s.relationships,
    (∃ e ∈ s.entities, Text.lower e.name = Text.lower r.first.name) ∧
      ∃ e ∈ s.entities, Text.lower e.name = Text.lower r.second.name
  /-- and declares a role for both or for neither -/
  roles : ∀ r ∈ s.relationships, r.first.role.isSome ↔ r.second.role.isSome

end SchemaDecl

/-! ## 2. The nodes of a diagram -/

theorem EntityDecl.map_nodes (e : EntityDecl) : e.nodes.map (fun n => (n.kind, n.path)) =
    ownerListing .entity (Text.lower e.name) e.attributes := by
  rw [nodes, List.map_cons, List.map_map, attributeNodes, ownerListing,
    lower_name,
    ← Attribute.map_path_nodesOf e.path e.attributes e.path none, List.map_map]
  rfl

theorem RelationshipDecl.map_nodes (r : RelationshipDecl) :
    r.nodes.map (fun n => (n.kind, n.path)) =
      ownerListing .relationship (Text.lower r.name) r.attributes := by
  rw [nodes, List.map_cons, List.map_map, attributeNodes, ownerListing,
    lower_name,
    ← Attribute.map_path_nodesOf r.path r.attributes r.path none, List.map_map]
  rfl

theorem length_ownerListing (kind : NodeKind) (path : String) (as : List Attribute) :
    (ownerListing kind path as).length = 1 + Attribute.reachOfEach as := by
  rw [ownerListing, List.length_cons, List.length_map, Attribute.length_pathsFromEach, Nat.add_comm]

/-- Each owner counts once, besides its attributes. -/
theorem length_flatMap_ownerListing {α : Type} (kind : NodeKind) (path : α → String)
    (attributes : α → List Attribute) : ∀ owners : List α,
      (owners.flatMap fun x => ownerListing kind (path x) (attributes x)).length =
        owners.length + Attribute.reachOfEach (owners.flatMap attributes)
  | [] => rfl
  | x :: owners => by
    rw [List.flatMap_cons, List.length_append, length_ownerListing,
      length_flatMap_ownerListing kind path attributes owners, List.flatMap_cons,
      Attribute.reachOfEach_append, List.length_cons]
    omega

namespace SchemaDecl

variable {schema : SchemaDecl}

/-- **The nodes of the diagram are those that the schema declares**, in order. -/
theorem map_nodes_diagram (schema : SchemaDecl) :
    schema.diagram.nodes.map (fun n => (n.kind, n.path)) = schema.listing := by
  rw [diagram, List.map_append, List.map_flatMap, List.map_flatMap, listing]
  simp only [EntityDecl.map_nodes, RelationshipDecl.map_nodes]

theorem map_path_diagram (schema : SchemaDecl) :
    schema.diagram.nodes.map Node.path = schema.listing.map Prod.snd := by
  rw [← map_nodes_diagram, List.map_map]
  rfl

theorem length_listing (schema : SchemaDecl) : schema.listing.length =
    schema.entities.length + schema.relationships.length + schema.reach := by
  rw [listing, List.length_append, length_flatMap_ownerListing, length_flatMap_ownerListing, reach]
  omega

/-- What a weak entity or subclass names as its parent. -/
theorem parentPath_eq_some_iff {e : EntityDecl} (hkind : e.kind ≠ .regular) {path : String} :
    e.parentPath = some path ↔ ∃ parent, e.parent = some parent ∧ path = Text.lower parent := by
  have hpath : e.parentPath = e.parent.map Text.lower := by
    rw [EntityDecl.parentPath]
    split
    · next hregular => exact absurd hregular hkind
    · rfl
  rw [hpath, Option.map_eq_some_iff]
  simp only [@eq_comm _ path]

/-- **A schema has a diagram if its names fit together**, and only then. -/
theorem isWellFormed_iff : schema.IsWellFormed ↔ schema.IsCoherent := by
  have hparents : ∀ {before : List EntityDecl} {e : EntityDecl}, e.kind ≠ .regular →
      ((∃ p ∈ before, e.parentPath = some p.path) ↔
        ∃ parent, e.parent = some parent ∧ ∃ p ∈ before, Text.lower p.name = Text.lower parent) := by
    intro before e hkind
    simp only [parentPath_eq_some_iff hkind]
    constructor
    · rintro ⟨p, hp, parent, hparent, hpath⟩
      exact ⟨parent, hparent, p, hp, hpath⟩
    · rintro ⟨parent, hparent, p, hp, hpath⟩
      exact ⟨p, hp, parent, hparent, hpath⟩
  constructor
  · intro h
    refine ⟨?_, fun before e after hsplit hkind => ?_, fun r hr => ⟨h.first r hr, h.second r hr⟩,
      fun r hr => ?_⟩
    · rw [← map_path_diagram]
      exact h.nodup
    · exact (hparents hkind).mp (h.parents before e after hsplit hkind)
    · rw [h.roles r hr]
  · intro h
    refine ⟨?_, fun before e after hsplit hkind => ?_, fun r hr => (h.ends r hr).1,
      fun r hr => (h.ends r hr).2, fun r hr => Bool.eq_iff_iff.mpr (h.roles r hr)⟩
    · rw [map_path_diagram]
      exact h.distinct
    · exact (hparents hkind).mpr (h.parents before e after hsplit hkind)

end SchemaDecl

/-! ## 3. Acceptance -/

/-- **A schema is accepted exactly if its names fit together**, and then the nodes of its diagram are
what it declares: entities with their attributes, then relationships with theirs, parts right behind
the whole. -/
theorem Diagram.exists_ofDecl_iff (schema : SchemaDecl) :
    ((∃ d, ofDecl schema = .ok d) ↔ schema.IsCoherent) ∧ ∀ d, ofDecl schema = .ok d →
      d.nodes.map (fun n => (n.kind, n.path)) = schema.listing ∧
        d.nodes.length = schema.entities.length + schema.relationships.length + schema.reach := by
  simp only [ofDecl_eq_ok, SchemaDecl.isWellFormed_iff]
  constructor
  · constructor
    · rintro ⟨d, hcoherent, -⟩
      exact hcoherent
    · exact fun hcoherent => ⟨_, hcoherent, rfl⟩
  · rintro d ⟨-, rfl⟩
    have hnodes := schema.map_nodes_diagram
    refine ⟨hnodes, ?_⟩
    rw [← schema.length_listing, ← hnodes, List.length_map]

/-- A hall with walls, whose width is no composite attribute and so has no parts to speak of. -/
def EntityDecl.hall : EntityDecl :=
  ⟨"Hall", .regular, none, [⟨"Wall", .composite, false, false, true,
    [⟨"width", .integer, false, false, false, [⟨"unit", .varchar, false, false, false, []⟩]⟩,
      ⟨"Paint", .composite, false, false, false,
        [⟨"color", .varchar, false, false, false, []⟩]⟩]⟩]⟩

/-- Halls with exhibits, which may face each other. -/
def SchemaDecl.halls : SchemaDecl where
  entities := [.hall,
    ⟨"Exhibit", .weak, some "HALL", [⟨"title", .varchar, false, true, false, []⟩]⟩]
  relationships := [⟨"Faces", ⟨"Exhibit", some "one"⟩, ⟨"exhibit", some "other"⟩, []⟩]

/-- Halls, and an entity that is called like the path of one of their attributes. -/
def SchemaDecl.namesakes : SchemaDecl where
  entities := [.hall, ⟨"Hall.WALL.Paint", .regular, none, []⟩]
  relationships := []

/-- Halls are accepted with a node for every attribute down to the color of a wall; they are not if
an entity takes the path of an attribute. -/
theorem Diagram.exists_ofDecl_iff_halls : SchemaDecl.halls.IsCoherent ∧
    (∃ d, ofDecl .halls = .ok d ∧
      d.nodes.map (fun n => (n.kind, n.path)) = [(.entity, "hall"), (.attr, "hall.wall"),
        (.attr, "hall.wall.width"), (.attr, "hall.wall.paint"), (.attr, "hall.wall.paint.color"),
        (.entity, "exhibit"), (.attr, "exhibit.title"), (.relationship, "faces")] ∧
      d.nodes.length = 2 + 1 + 5) ∧ ¬SchemaDecl.namesakes.IsCoherent := by
  obtain ⟨d, hd⟩ := exists_of_isOk (show (ofDecl .halls).isOk = true by decide +kernel)
  obtain ⟨hiff, hnodes⟩ := exists_ofDecl_iff .halls
  obtain ⟨hlisting, hlength⟩ := hnodes d hd
  have hexpected : SchemaDecl.halls.listing = [(.entity, "hall"), (.attr, "hall.wall"),
      (.attr, "hall.wall.width"), (.attr, "hall.wall.paint"), (.attr, "hall.wall.paint.color"),
      (.entity, "exhibit"), (.attr, "exhibit.title"), (.relationship, "faces")] := by
    decide +kernel
  refine ⟨hiff.mp ⟨d, hd⟩, ⟨d, hd, hlisting.trans hexpected, hlength.trans (by decide)⟩, ?_⟩
  intro hcoherent
  obtain ⟨d', hd'⟩ := (exists_ofDecl_iff .namesakes).1.mpr hcoherent
  have hrefused : (ofDecl .namesakes).isOk = false := by decide +kernel
  rw [hd'] at hrefused
  exact nomatch hrefused

end EntityLayout

/-
# Building a diagram from declarations

Declarations are added one by one.  A change that is cut short leaves the diagram as far as
it came, so a `Change` holds the diagram and, if it was cut short, the reason.

* `addEntity` adds an entity, its attributes and the edge to its parent.
* `addRelationship` adds a relationship, its attributes and the edges to its two entities.
* `ofDecl` adds all entities, then all relationships, of a schema.
-/
import EntityLayout.Diagram.Basic

namespace EntityLayout

/-- A diagram after a change, and why the change was cut short, if it was. -/
abbrev Change := Diagram × Option DiagramError

/-- Goes on with a change unless it was cut short. -/
def Change.andThen (c : Change) (next : Diagram → Change) : Change :=
  match c with
  | (d, none) => next d
  | (d, some e) => (d, some e)

namespace Diagram

/-! ## 1. Single steps -/

/-- Uses the result of a look-up, or cuts the change short. -/
def withFound {α : Type} (d : Diagram) (found : Except DiagramError α) (next : α → Change) :
    Change :=
  match found with
  | .ok a => next a
  | .error e => (d, some e)

/-- Appends a node whose path is new. -/
def insertNode (n : Node) (d : Diagram) : Change :=
  if d.nodes.any (·.path = n.path) then (d, some (.duplicateNode n.path))
  else (⟨d.nodes ++ [n], d.edges⟩, none)

/-- Appends an edge between two nodes. -/
def connect (kind : EdgeKind) (source target : String) (d : Diagram) : Change :=
  d.withFound (d.nodeAt source) fun s =>
    d.withFound (d.nodeAt target) fun t =>
      (⟨d.nodes, d.edges ++ [⟨kind, s.path, t.path⟩]⟩, none)

/-- Changes the node of that path. -/
def updateNode (path : String) (f : Node → Node) (d : Diagram) : Diagram :=
  ⟨d.nodes.map fun n => if n.path = path then f n else n, d.edges⟩

/-- Lists an attribute with its owner. -/
def recordOwned (owner path : String) (d : Diagram) : Change :=
  d.withFound (d.nodeAt owner) fun n =>
    match n with
    | .entity e => (d.updateNode e.path fun _ =>
        .entity { e with attributes := e.attributes ++ [path] }, none)
    | .relationship r => (d.updateNode r.path fun _ =>
        .relationship { r with attributes := r.attributes ++ [path] }, none)
    | .attr _ => (d, some (.misuse owner .ownedByAttribute))

/-- Lists a part with the composite attribute it belongs to. -/
def recordPart (parent path : String) (d : Diagram) : Change :=
  d.withFound (d.nodeAt parent) fun n =>
    match n with
    | .attr a => (d.updateNode a.path fun _ =>
        .attr { a with children := a.children ++ [path] }, none)
    | _ => (d, none)

/-! ## 2. Attributes -/

/-- Adds the node of an attribute and ties it to its owner or to the attribute around it. -/
def addAttributeNode (a : Attribute) (path owner : String) (parent : Option String)
    (d : Diagram) : Change :=
  let node : Node := .attr
    { name := a.name, path, type := a.type, multivalued := a.multivalued
      primaryKey := a.primaryKey, discriminator := a.discriminator, owner, parent
      children := [] }
  ((d.insertNode node).andThen (recordOwned owner path)).andThen fun d =>
    match parent with
    | some p => (d.recordPart p path).andThen (connect .hasPart p path)
    | none => d.connect .hasAttribute owner path

mutual

/-- Adds an attribute below `above`, and the parts of a composite one below it. -/
def addAttribute (above owner : String) (parent : Option String) :
    Attribute → Diagram → Change
  | ⟨name, type, primaryKey, discriminator, multivalued, parts⟩, d =>
    let path := Path.below above name
    (d.addAttributeNode ⟨name, type, primaryKey, discriminator, multivalued, parts⟩ path owner
      parent).andThen fun d =>
        if type.isComposite then addAttributes path owner (some path) parts d else (d, none)

/-- Adds attributes in order. -/
def addAttributes (above owner : String) (parent : Option String) :
    List Attribute → Diagram → Change
  | [], d => (d, none)
  | a :: as, d =>
    (addAttribute above owner parent a d).andThen (addAttributes above owner parent as)

end

/-! ## 3. Entities and relationships -/

/-- The path of the parent that the kind of an entity calls for. -/
def parentOf (decl : EntityDecl) (d : Diagram) : Except DiagramError (Option String) :=
  match decl.kind, decl.parent with
  | .regular, _ => .ok none
  | _, none => .error (.misuse (Text.lower decl.name) .noParent)
  | _, some p => do
    let e ← d.entityAt p
    pure (some e.path)

/-- Adds an entity, its attributes and the edge to its parent. -/
def addEntity (decl : EntityDecl) (d : Diagram) : Change :=
  let path := Text.lower decl.name
  d.withFound (d.parentOf decl) fun parent =>
    ((d.insertNode (.entity ⟨decl.name, path, decl.kind, parent, []⟩)).andThen
      (addAttributes path path none decl.attributes)).andThen fun d =>
        match parent with
        | some p => d.connect .dependsOn path p
        | none => (d, none)

/-- The roles of a relationship: both or none. -/
def rolesOf (decl : RelationshipDecl) : Except DiagramError (Option (String × String)) :=
  match decl.first.role, decl.second.role with
  | some r₁, some r₂ => .ok (some (r₁, r₂))
  | none, none => .ok none
  | _, _ => .error (.misuse (Text.lower decl.name) .loneRole)

/-- Adds a relationship, its attributes and the edges to its two entities. -/
def addRelationship (decl : RelationshipDecl) (d : Diagram) : Change :=
  let path := Text.lower decl.name
  d.withFound (d.entityAt decl.first.name) fun e₁ =>
    d.withFound (d.entityAt decl.second.name) fun e₂ =>
      d.withFound (rolesOf decl) fun roles =>
        (((d.insertNode (.relationship ⟨decl.name, path, e₁.path, e₂.path, roles, []⟩)).andThen
          (addAttributes path path none decl.attributes)).andThen
            (connect .relates path e₁.path)).andThen (connect .relates path e₂.path)

/-! ## 4. Whole schemas -/

/-- Adds items one after another. -/
def addAll {α : Type} (add : α → Diagram → Change) : List α → Diagram → Change
  | [], d => (d, none)
  | a :: as, d => (add a d).andThen (addAll add as)

/-- The diagram of a schema. -/
def ofDecl (schema : SchemaDecl) : Except DiagramError Diagram :=
  match (addAll addEntity schema.entities empty).andThen
      (addAll addRelationship schema.relationships) with
  | (d, none) => .ok d
  | (_, some e) => .error e

end Diagram

end EntityLayout

/-
# Entity-relationship diagrams

A diagram has entities, relationships and attributes as nodes and directed edges between
them.  A node is known by its path: the name of an entity or relationship in small letters,
or the dotted path of an attribute.  Nodes refer to each other by path.

* `find?` looks a node up by path, in any spelling.
* `entityAt`, `relationshipAt`, `attributeAt` look up a node of one kind.
* `neighbors`, `attributesOf`, `topLevel`, `endpoints` follow the references of a node.
-/
import EntityLayout.Attribute
import EntityLayout.Declaration
import EntityLayout.Path

namespace EntityLayout

/-! ## 1. Nodes and edges -/

/-- An entity of a diagram. -/
structure EntityNode where
  name : String
  path : String
  kind : EntityKind
  /-- the owner of a weak entity or the superclass of a subclass -/
  parent : Option String
  /-- every attribute of the entity, parts of composites included, in order of declaration -/
  attributes : List String
  deriving DecidableEq, Repr

/-- Whether the entity is a subclass. -/
def EntityNode.isSubclass (e : EntityNode) : Bool := decide (e.kind = .subclass)

/-- Whether the entity is weak. -/
def EntityNode.isWeak (e : EntityNode) : Bool := decide (e.kind = .weak)

/-- A relationship of a diagram. -/
structure RelationshipNode where
  name : String
  path : String
  first : String
  second : String
  /-- the roles of the two entities, when they were declared -/
  roles : Option (String × String)
  attributes : List String
  deriving DecidableEq, Repr

/-- Whether the relationship is between an entity and itself. -/
def RelationshipNode.isRecursive (r : RelationshipNode) : Bool := decide (r.first = r.second)

/-- An attribute of a diagram. -/
structure AttributeNode where
  name : String
  path : String
  type : AttributeType
  multivalued : Bool
  primaryKey : Bool
  discriminator : Bool
  /-- the entity or relationship that has the attribute -/
  owner : String
  /-- the composite attribute that the attribute is a part of -/
  parent : Option String
  /-- the parts of the attribute -/
  children : List String
  deriving DecidableEq, Repr

/-- Whether the attribute is composite by its type. -/
def AttributeNode.isComposite (a : AttributeNode) : Bool := a.type.isComposite

/-- The kinds of nodes. -/
inductive NodeKind where
  | entity
  | relationship
  | attr
  deriving DecidableEq, Repr

/-- A node of a diagram. -/
inductive Node where
  | entity (e : EntityNode)
  | relationship (r : RelationshipNode)
  | attr (a : AttributeNode)
  deriving DecidableEq, Repr

namespace Node

/-- The name as it was declared. -/
def name : Node → String
  | .entity e => e.name
  | .relationship r => r.name
  | .attr a => a.name

/-- The path that identifies the node. -/
def path : Node → String
  | .entity e => e.path
  | .relationship r => r.path
  | .attr a => a.path

/-- The kind of the node. -/
def kind : Node → NodeKind
  | .entity _ => .entity
  | .relationship _ => .relationship
  | .attr _ => .attr

/-- The entity that the node is. -/
def entity? : Node → Option EntityNode
  | .entity e => some e
  | _ => none

/-- The relationship that the node is. -/
def relationship? : Node → Option RelationshipNode
  | .relationship r => some r
  | _ => none

/-- The attribute that the node is. -/
def attr? : Node → Option AttributeNode
  | .attr a => some a
  | _ => none

end Node

/-- What an edge says about its ends. -/
inductive EdgeKind where
  /-- from an owner to one of its own attributes -/
  | hasAttribute
  /-- from a composite attribute to one of its parts -/
  | hasPart
  /-- from a relationship to one of its entities -/
  | relates
  /-- from a weak entity or subclass to its parent -/
  | dependsOn
  deriving DecidableEq, Repr

/-- An edge between two nodes, given by their paths. -/
structure Edge where
  kind : EdgeKind
  source : String
  target : String
  deriving DecidableEq, Repr

/-- The nodes and edges of a schema, each in order of insertion. -/
structure Diagram where
  nodes : List Node
  edges : List Edge
  deriving DecidableEq, Repr

/-! ## 2. What can go wrong -/

/-- Why a node cannot serve the purpose it is asked for. -/
inductive Misuse where
  | wrongKind (wanted found : NodeKind)
  | noParent
  | loneRole
  | ownedByAttribute
  | noAttributes
  | ownsNothing
  | unresolvedEndpoints
  | tooFewAttributes (wanted found : Nat)
  | partOfItself
  deriving DecidableEq, Repr

/-- A node kind with its article. -/
def NodeKind.described : NodeKind → String
  | .entity => "an entity"
  | .relationship => "a relationship"
  | .attr => "an attribute"

/-- A node kind as a title. -/
def NodeKind.title : NodeKind → String
  | .entity => "Entity"
  | .relationship => "Relationship"
  | .attr => "Attribute"

/-- The wording of a misuse. -/
def Misuse.message : Misuse → String
  | .wrongKind wanted found => "expected " ++ wanted.described ++ ", found " ++ found.title
  | .noParent => "weak entity or subclass without a parent"
  | .loneRole => "a role label is declared for only one endpoint"
  | .ownedByAttribute => "attribute owner is an attribute"
  | .noAttributes => "entity has no attributes"
  | .ownsNothing => "attributes do not own top-level attributes"
  | .unresolvedEndpoints => "relationship endpoints cannot be resolved"
  | .tooFewAttributes wanted found =>
    "expected at least " ++ Nat.repr wanted ++ " attributes, found " ++ Nat.repr found
  | .partOfItself => "attribute is a part of itself"

/-- A failure to build or to consult a diagram. -/
inductive DiagramError where
  | unknownNode (path : String)
  | misuse (path : String) (m : Misuse)
  | duplicateNode (path : String)
  deriving DecidableEq, Repr

/-- The wording of a failure. -/
def DiagramError.message : DiagramError → String
  | .unknownNode path => "Node not found: " ++ path
  | .misuse path m => "Invalid state for " ++ path ++ ": " ++ m.message
  | .duplicateNode path => "Duplicate node name: " ++ path

/-! ## 3. Looking up nodes -/

namespace Diagram

/-- The diagram without nodes. -/
def empty : Diagram := ⟨[], []⟩

instance : Inhabited Diagram := ⟨empty⟩

/-- The node of that path, in any spelling. -/
def find? (d : Diagram) (path : String) : Option Node :=
  let key := Text.lower path
  d.nodes.find? fun n => n.path = key

/-- Whether there is a node of that path, in any spelling. -/
def contains (d : Diagram) (path : String) : Bool := (d.find? path).isSome

/-- The node of that path. -/
def nodeAt (d : Diagram) (path : String) : Except DiagramError Node :=
  match d.find? path with
  | some n => .ok n
  | none => .error (.unknownNode (Text.lower path))

/-- The entity of that path. -/
def entityAt (d : Diagram) (path : String) : Except DiagramError EntityNode := do
  match ← d.nodeAt path with
  | .entity e => pure e
  | n => throw (.misuse n.path (.wrongKind .entity n.kind))

/-- The relationship of that path. -/
def relationshipAt (d : Diagram) (path : String) : Except DiagramError RelationshipNode := do
  match ← d.nodeAt path with
  | .relationship r => pure r
  | n => throw (.misuse n.path (.wrongKind .relationship n.kind))

/-- The attribute of that path. -/
def attributeAt (d : Diagram) (path : String) : Except DiagramError AttributeNode := do
  match ← d.nodeAt path with
  | .attr a => pure a
  | n => throw (.misuse n.path (.wrongKind .attr n.kind))

/-- The entities in order. -/
def entities (d : Diagram) : List EntityNode := d.nodes.filterMap Node.entity?

/-! ## 4. Following references -/

/-- The other ends of an edge, as seen from one node; both ends of a loop. -/
def Edge.others (path : String) (e : Edge) : List String :=
  (if e.source = path then [e.target] else []) ++ (if e.target = path then [e.source] else [])

/-- The nodes next to a node in either direction, in the order of the edges. -/
def neighbors (d : Diagram) (path : String) : Except DiagramError (List String) := do
  let n ← d.nodeAt path
  pure (d.edges.flatMap (Edge.others n.path))

/-- The attributes of an entity, parts included; an entity without any is refused. -/
def attributesOf (d : Diagram) (path : String) : Except DiagramError (List AttributeNode) := do
  let e ← d.entityAt path
  if e.attributes.isEmpty then throw (.misuse e.path .noAttributes)
  e.attributes.mapM d.attributeAt

/-- The attributes of an entity or relationship that are no parts of others. -/
def topLevel (d : Diagram) (path : String) : Except DiagramError (List AttributeNode) := do
  let owned ← match ← d.nodeAt path with
    | .entity e => pure e.attributes
    | .relationship r => pure r.attributes
    | .attr a => throw (.misuse a.path .ownsNothing)
  let attributes ← owned.mapM d.attributeAt
  pure (attributes.filter fun a => a.parent.isNone)

/-- The entities at the ends of the edges by which a relationship relates entities. -/
def related (d : Diagram) (path : String) : List EntityNode :=
  d.edges.filterMap fun e =>
    if e.kind = .relates ∧ e.source = path then (d.nodes.find? (·.path = e.target)).bind Node.entity?
    else none

/-- The two entities of a relationship, as its edges and its own fields agree on them. -/
def endpoints (d : Diagram) (path : String) : Except DiagramError (EntityNode × EntityNode) := do
  let r ← d.relationshipAt path
  match d.related r.path with
  | [e₁, e₂] =>
    if e₁.path = r.first ∧ e₂.path = r.second then pure (e₁, e₂)
    else throw (.misuse r.path .unresolvedEndpoints)
  | _ => throw (.misuse r.path .unresolvedEndpoints)

end Diagram

end EntityLayout

/-
# Compiled diagrams as JSON

The written form of a compiled diagram: its nodes, each with what was derived for it, and its
edges.  Reading it back checks that no path is taken twice and that every path a node or an
edge refers to is that of a node.

* `CompiledDiagram.toText`, `CompiledDiagram.ofText`: the text and back.
* `GraphFile.load`: the checks.
-/
import EntityLayout.Compiled
import EntityLayout.Diagram.Build
import EntityLayout.Document.Schema

namespace EntityLayout

open Json (Reader Field)

/-! ## 1. Structures and decisions -/

namespace Attribute

/-- Reads an attribute of a structure whose parts are nested no deeper than `depth`. -/
def structureReader : (depth : Nat) → Reader Attribute
  | 0 => fun _ _ => Json.fail .malformed
  | depth + 1 => fun scope d => do
    let (name, type, multivalued, primaryKey, discriminator, parts, ()) ←
      @Json.record [String, AttributeType, Bool, Bool, Bool, List Attribute]
        "struct LogicalAttribute"
        (.required "attr_name" Json.string,
          .required "attr_type" AttributeType.reader,
          .withDefault "is_multivalued" Json.boolean false,
          .withDefault "is_primary_key" Json.boolean false,
          .withDefault "is_discriminator" Json.boolean false,
          .withDefault "sub_attributes" (Json.list (structureReader depth)) [], ()) scope d
    pure ⟨name, type, primaryKey, discriminator, multivalued, parts⟩

/-- Reads the attributes of a structure. -/
def structureFromJson : Reader (List Attribute) := Json.list (structureReader Json.nestingLimit)

mutual

/-- Writes an attribute of a structure; parts are left out where there are none. -/
def structureToJson : Attribute → Json
  | ⟨name, type, primaryKey, discriminator, multivalued, parts⟩ =>
    .object ([("attr_name", .text name), ("attr_type", type.toJson),
      ("is_multivalued", .bool multivalued), ("is_primary_key", .bool primaryKey),
      ("is_discriminator", .bool discriminator)]
      ++ if parts.isEmpty then [] else [("sub_attributes", .array (structuresToJson parts))])

/-- Writes the attributes of a structure, each on its own. -/
def structuresToJson : List Attribute → List Json
  | [] => []
  | a :: as => structureToJson a :: structuresToJson as

end

end Attribute

namespace Placement

/-- The placements by name. -/
def byName : List (String × Placement) :=
  [("all_by_itself", .alone), ("contained_in_parent", .withinParent),
    ("partially_by_itself", .besideParent)]

/-- Reads a placement by its name. -/
def reader : Reader Placement := Json.choice byName

/-- The name of a placement. -/
def name : Placement → String
  | .alone => "all_by_itself"
  | .withinParent => "contained_in_parent"
  | .besideParent => "partially_by_itself"

end Placement

namespace Decision

/-- Reads a decision. -/
def reader : Reader Decision :=
  Json.tagged "internally tagged enum LayoutDecision" "kind"
    [("subclass", fun scope d => do
        let (placement, grouping, ()) ← @Json.record [Placement, Option Nat]
          "struct variant LayoutDecision::Subclass"
          (.required "placement" Placement.reader, .nullable "grouping" Json.nat64, ()) scope d
        pure (.subclass placement grouping)),
      ("weak", fun scope d => do
        let (alone, grouping, ()) ← @Json.record [Bool, Nat] "struct variant LayoutDecision::Weak"
          (.required "all_by_itself" Json.boolean, .required "grouping" Json.nat64, ()) scope d
        pure (.weak alone grouping))]

/-- Writes a decision. -/
def toJson : Decision → Json
  | .subclass placement grouping =>
    .object [("kind", .text "subclass"), ("placement", .text placement.name),
      ("grouping", Json.orNull .nat grouping)]
  | .weak alone grouping =>
    .object [("kind", .text "weak"), ("all_by_itself", .bool alone), ("grouping", .nat grouping)]

end Decision

/-! ## 2. Nodes and edges -/

/-- A node as it is written: with its tables and structure and, for an entity, its
decision. -/
structure NodeRecord where
  node : Node
  decision : Option Decision
  tables : List String
  attributes : List Attribute
  deriving DecidableEq

namespace NodeRecord

/-- Reads an entity. -/
def entityReader : Reader NodeRecord := fun scope d => do
  let (name, path, kind, parent, attributes, decision, tables, structured, ()) ←
    @Json.record [String, String, EntityKind, Option String, List String, Option Decision,
        List String, List Attribute] "struct PersistedEntity"
      (.required "name" Json.string,
        .required "unique_name" Json.string,
        .required "entity_type" EntityKind.reader,
        .optional "parent_entity" Json.string,
        .required "attributes" (Json.list Json.string),
        .optional "layout" Decision.reader,
        .required "tables" (Json.list Json.string),
        .required "structure" Attribute.structureFromJson, ()) scope d
  pure ⟨.entity ⟨name, path, kind, parent, attributes⟩, decision, tables, structured⟩

/-- Reads a relationship. -/
def relationshipReader : Reader NodeRecord := fun scope d => do
  let (name, path, first, second, roles, attributes, tables, structured, ()) ←
    @Json.record [String, String, String, String, Option (String × String), List String,
        List String, List Attribute] "struct PersistedRelationship"
      (.required "name" Json.string,
        .required "unique_name" Json.string,
        .required "entity1" Json.string,
        .required "entity2" Json.string,
        .optional "roles" (Json.pair Json.string Json.string),
        .required "attributes" (Json.list Json.string),
        .required "tables" (Json.list Json.string),
        .required "structure" Attribute.structureFromJson, ()) scope d
  pure ⟨.relationship ⟨name, path, first, second, roles, attributes⟩, none, tables, structured⟩

/-- Reads an attribute. -/
def attributeReader : Reader NodeRecord := fun scope d => do
  let (name, path, type, multivalued, primaryKey, discriminator, owner, parent, children, ()) ←
    @Json.record [String, String, AttributeType, Bool, Bool, Bool, String, Option String,
        List String] "struct PersistedAttribute"
      (.required "name" Json.string,
        .required "unique_name" Json.string,
        .required "attr_type" AttributeType.reader,
        .required "is_multivalued" Json.boolean,
        .required "is_primary_key" Json.boolean,
        .required "is_discriminator" Json.boolean,
        .required "entity" Json.string,
        .optional "parent_attribute" Json.string,
        .withDefault "sub_attributes" (Json.list Json.string) [], ()) scope d
  pure ⟨.attr ⟨name, path, type, multivalued, primaryKey, discriminator, owner, parent, children⟩,
    none, [], []⟩

/-- Reads a node. -/
def reader : Reader NodeRecord :=
  Json.tagged "internally tagged enum PersistedNode" "node_type"
    [("ENTITY", entityReader), ("RELATIONSHIP", relationshipReader),
      ("ATTRIBUTE", attributeReader)]

/-- Writes a node. -/
def toJson (r : NodeRecord) : Json :=
  match r.node with
  | .entity e =>
    .object ([("node_type", .text "ENTITY"), ("name", .text e.name),
      ("unique_name", .text e.path), ("entity_type", .text e.kind.name)]
      ++ Json.fieldIfSome "parent_entity" .text e.parent
      ++ [("attributes", .texts e.attributes)]
      ++ Json.fieldIfSome "layout" Decision.toJson r.decision
      ++ [("tables", .texts r.tables),
        ("structure", .array (Attribute.structuresToJson r.attributes))])
  | .relationship e =>
    .object ([("node_type", .text "RELATIONSHIP"), ("name", .text e.name),
      ("unique_name", .text e.path), ("entity1", .text e.first), ("entity2", .text e.second)]
      ++ Json.fieldIfSome "roles" (fun p => .texts [p.1, p.2]) e.roles
      ++ [("attributes", .texts e.attributes), ("tables", .texts r.tables),
        ("structure", .array (Attribute.structuresToJson r.attributes))])
  | .attr a =>
    .object ([("node_type", .text "ATTRIBUTE"), ("name", .text a.name),
      ("unique_name", .text a.path), ("attr_type", a.type.toJson),
      ("is_multivalued", .bool a.multivalued), ("is_primary_key", .bool a.primaryKey),
      ("is_discriminator", .bool a.discriminator), ("entity", .text a.owner)]
      ++ Json.fieldIfSome "parent_attribute" .text a.parent
      ++ if a.children.isEmpty then [] else [("sub_attributes", .texts a.children)])

end NodeRecord

/-- The edge kinds by name. -/
def EdgeKind.byName : List (String × EdgeKind) :=
  [("ENTITY_ATTRIBUTE", .hasAttribute), ("ATTRIBUTE_ATTRIBUTE", .hasPart),
    ("ENTITY_RELATIONSHIP", .relates), ("ENTITY_ENTITY", .dependsOn)]

/-- The name of an edge kind. -/
def EdgeKind.name : EdgeKind → String
  | .hasAttribute => "ENTITY_ATTRIBUTE"
  | .hasPart => "ATTRIBUTE_ATTRIBUTE"
  | .relates => "ENTITY_RELATIONSHIP"
  | .dependsOn => "ENTITY_ENTITY"

/-- Reads an edge. -/
def Edge.reader : Reader Edge := fun scope d => do
  let (kind, source, target, ()) ← @Json.record [EdgeKind, String, String] "struct PersistedEdge"
    (.required "kind" (Json.choice EdgeKind.byName),
      .required "source" Json.string,
      .required "target" Json.string, ()) scope d
  pure ⟨kind, source, target⟩

/-- Writes an edge. -/
def Edge.toJson (e : Edge) : Json :=
  .object [("kind", .text e.kind.name), ("source", .text e.source), ("target", .text e.target)]

/-! ## 3. Files -/

/-- The content of a file, before its references are checked. -/
structure GraphFile where
  nodes : List NodeRecord
  edges : List Edge
  deriving DecidableEq

/-- Why a file cannot be loaded. -/
inductive LoadError where
  | json (e : Json.ReadError)
  | dangling (node reference : String)
  | diagram (e : DiagramError)
  deriving DecidableEq, Repr

/-- The wording of a failure. -/
def LoadError.message : LoadError → String
  | .json e => "Malformed graph JSON: " ++ e.message
  | .dangling node reference => node ++ " refers to unknown node " ++ reference
  | .diagram e => e.message

namespace GraphFile

/-- Reads the content of a file. -/
def reader : Reader GraphFile := fun scope d => do
  let (nodes, edges, ()) ← @Json.record [List NodeRecord, List Edge] "struct PersistedGraph"
    (.required "nodes" (Json.list NodeRecord.reader),
      .required "edges" (Json.list Edge.reader), ()) scope d
  pure ⟨nodes, edges⟩

/-- Writes the content of a file. -/
def toJson (f : GraphFile) : Json :=
  .object [("nodes", .array (f.nodes.map NodeRecord.toJson)),
    ("edges", .array (f.edges.map Edge.toJson))]

/-- The paths that a node refers to. -/
def references : Node → List String
  | .entity e => e.parent.toList ++ e.attributes
  | .relationship r => r.first :: r.second :: r.attributes
  | .attr a => a.owner :: (a.parent.toList ++ a.children)

/-- Takes over a node and what was derived for it. -/
def loadNode (r : NodeRecord) (c : CompiledDiagram) : Except LoadError CompiledDiagram :=
  match c.diagram.insertNode r.node with
  | (_, some e) => .error (.diagram e)
  | (diagram, none) =>
    let path := r.node.path
    .ok (match r.node with
      | .attr _ => { c with diagram }
      | _ =>
        { diagram
          layout := match r.decision with
            | some made => c.layout.insert path made
            | none => c.layout
          ownership := c.ownership.insert path r.tables
          structures := c.structures.insert path r.attributes })

/-- Takes over nodes in order. -/
def loadNodes : List NodeRecord → CompiledDiagram → Except LoadError CompiledDiagram
  | [], c => .ok c
  | r :: rs, c => do
    let c ← loadNode r c
    loadNodes rs c

/-- Checks that every reference of every node is to a node. -/
def checkReferences (d : Diagram) : List Node → Except LoadError Unit
  | [] => .ok ()
  | n :: ns =>
    match (references n).find? fun path => !d.contains path with
    | some path => .error (.dangling n.path path)
    | none => checkReferences d ns

/-- Adds edges in order, each between two nodes. -/
def loadEdges : List Edge → Diagram → Except LoadError Diagram
  | [], d => .ok d
  | e :: es, d =>
    match [e.source, e.target].find? fun path => !d.contains path with
    | some path => .error (.dangling e.source path)
    | none =>
      match d.connect e.kind e.source e.target with
      | (_, some err) => .error (.diagram err)
      | (d, none) => loadEdges es d

/-- The compiled diagram of a file. -/
def load (f : GraphFile) : Except LoadError CompiledDiagram := do
  let c ← loadNodes f.nodes .empty
  checkReferences c.diagram c.diagram.nodes
  let diagram ← loadEdges f.edges c.diagram
  pure { c with diagram }

end GraphFile

namespace CompiledDiagram

/-- A node with what was derived for it; attributes have no tables and no structure. -/
def record (c : CompiledDiagram) (n : Node) : NodeRecord :=
  match n with
  | .entity e =>
    ⟨n, c.layout.get? e.path, c.ownership.tablesOf e.path, (c.structures.get? e.path).getD []⟩
  | .relationship r =>
    ⟨n, none, c.ownership.tablesOf r.path, (c.structures.get? r.path).getD []⟩
  | .attr _ => ⟨n, none, [], []⟩

/-- The content of a file for the diagram. -/
def toFile (c : CompiledDiagram) : GraphFile := ⟨c.diagram.nodes.map c.record, c.diagram.edges⟩

/-- Writes a compiled diagram. -/
def toJson (c : CompiledDiagram) : Json := c.toFile.toJson

/-- The text of the written form. -/
def toText (c : CompiledDiagram) : String := c.toJson.pretty

/-- Reads the text of a written form. -/
def ofText (text : String) : Except LoadError CompiledDiagram := do
  let f ← (Json.readText GraphFile.reader text).mapError .json
  f.load

end CompiledDiagram

end EntityLayout

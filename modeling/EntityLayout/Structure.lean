/-
# Logical structures

The structure of an entity or relationship is the list of attributes that a query for it has
to produce.

* A regular entity has its own attributes; a key in first place takes the name of the key
  column.
* A weak entity has the first attribute of its owner and its own.
* A subclass has the structure of its parent and its own attributes; if it stands alone, the
  first takes the name of its key column.
* A relationship has the first attribute of either entity, or the first two of a weak one,
  and its own.  Where the two keys have one name, they are renamed after the roles, or after
  the entities if there are no roles.
-/
import EntityLayout.Naming
import EntityLayout.Placement

namespace EntityLayout

/-- The structures of entities and relationships. -/
abbrev Structures := Register (List Attribute)

/-! ## 1. Errors -/

/-- Why the keys of a relationship cannot be told apart. -/
inductive KeyClash where
  | weakEndpoint
  | sameName (name : String)
  deriving DecidableEq, Repr

/-- The wording of a clash. -/
def KeyClash.message : KeyClash → String
  | .weakEndpoint => "endpoint keys collide and an endpoint is a weak entity"
  | .sameName name => "both endpoint keys would be named " ++ name

/-- Why a node has no structure. -/
inductive StructureError where
  | unsupported (node : String) (clash : KeyClash)
  | diagram (e : DiagramError)
  deriving DecidableEq, Repr

/-- The wording of a failure. -/
def StructureError.message : StructureError → String
  | .unsupported node clash => "Unsupported structure for " ++ node ++ ": " ++ clash.message
  | .diagram e => e.message

namespace Structures

/-! ## 2. Attributes of a diagram as trees -/

/-- The attributes at the given paths, each turned into a tree by `tree`. -/
def treesBy (d : Diagram) (tree : AttributeNode → Except DiagramError Attribute) :
    List String → Except DiagramError (List Attribute)
  | [] => .ok []
  | path :: paths => do
    let a ← d.attributeAt path
    let t ← tree a
    let ts ← treesBy d tree paths
    pure (t :: ts)

/-- An attribute with its parts, its name in small letters; `depth` bounds the nesting. -/
def treeWithin (d : Diagram) : (depth : Nat) → AttributeNode → Except DiagramError Attribute
  | 0, a => .error (.misuse a.path .partOfItself)
  | depth + 1, a => do
    let parts ← treesBy d (treeWithin d depth) a.children
    pure ⟨Text.lower a.name, a.type, a.primaryKey, a.discriminator, a.multivalued, parts⟩

/-- An attribute with its parts.  No chain of parts is longer than the diagram has nodes. -/
def tree (d : Diagram) (a : AttributeNode) : Except DiagramError Attribute :=
  treeWithin d (d.nodes.length + 1) a

/-- Turns attributes into trees, in order. -/
def trees (d : Diagram) (as : List AttributeNode) : Except DiagramError (List Attribute) :=
  as.mapM (tree d)

/-- The attributes that a node has of its own. -/
def own (d : Diagram) (path : String) : Except DiagramError (List Attribute) := do
  let as ← d.topLevel path
  trees d as

/-! ## 3. One node -/

/-- The structure of a node that was dealt with before. -/
def require (known : Structures) (path : String) : Except DiagramError (List Attribute) :=
  match known.get? path with
  | some s => .ok s
  | none => .error (.unknownNode path)

/-- The first attributes of a structure, as many as wanted. -/
def leading (known : Structures) (path : String) (count : Nat) :
    Except DiagramError (List Attribute) := do
  let s ← known.require path
  if s.length < count then throw (.misuse path (.tooFewAttributes count s.length))
  pure (s.take count)

/-- A structure with its first attribute renamed. -/
def renameFirst (name : String) : List Attribute → List Attribute
  | [] => []
  | a :: as => { a with name } :: as

/-- The attributes of a regular entity: a key in first place takes the name of its column. -/
def withKeyColumn (naming : Naming) (entity : String) : List Attribute → List Attribute
  | [] => []
  | a :: as => if naming.isKeyName a.name then { a with name := naming.keyColumn entity } :: as
    else a :: as

/-- The structure of an entity. -/
def ofEntity (d : Diagram) (layout : Layout) (naming : Naming) (known : Structures)
    (e : EntityNode) : Except DiagramError (List Attribute) := do
  let own ← own d e.path
  match e.parent with
  | none => pure (withKeyColumn naming e.path own)
  | some parent =>
    if e.isWeak then
      let key ← known.leading parent 1
      pure (key ++ own)
    else
      let inherited ← known.require parent
      if layout.isAlone e.path then
        pure (renameFirst (naming.keyColumn e.path) (inherited ++ own))
      else pure (inherited ++ own)

/-- How many attributes of an entity identify it in a relationship. -/
def keyCount (e : EntityNode) : Nat := if e.isWeak then 2 else 1

/-- The names of the two keys of a relationship, where they have to be renamed. -/
def sideNames (naming : Naming) (r : RelationshipNode) (e₁ e₂ : EntityNode) : String × String :=
  match r.roles with
  | some (role₁, role₂) => (naming.roleKeyColumn role₁, naming.roleKeyColumn role₂)
  | none => (naming.keyColumn e₁.path, naming.keyColumn e₂.path)

/-- The two keys of a relationship, renamed if their first attributes have one name. -/
def sideKeys (naming : Naming) (r : RelationshipNode) (e₁ e₂ : EntityNode)
    (left right : List Attribute) : Except StructureError (List Attribute × List Attribute) :=
  if left.head?.map Attribute.name = right.head?.map Attribute.name then
    if e₁.isWeak || e₂.isWeak then .error (.unsupported r.path .weakEndpoint)
    else
      let (first, second) := sideNames naming r e₁ e₂
      if first = second then .error (.unsupported r.path (.sameName first))
      else .ok (renameFirst first left, renameFirst second right)
  else .ok (left, right)

/-- A failure to consult the diagram, as a failure to find a structure. -/
def liftDiagram {α : Type} : Except DiagramError α → Except StructureError α :=
  Except.mapError .diagram

/-- The structure of a relationship. -/
def ofRelationship (d : Diagram) (naming : Naming) (known : Structures) (r : RelationshipNode) :
    Except StructureError (List Attribute) := do
  let (e₁, e₂) ← liftDiagram (d.endpoints r.path)
  let left ← liftDiagram (known.leading e₁.path (keyCount e₁))
  let right ← liftDiagram (known.leading e₂.path (keyCount e₂))
  let (left, right) ← sideKeys naming r e₁ e₂ left right
  let own ← liftDiagram (own d r.path)
  pure (left ++ right ++ own)

/-! ## 4. All nodes -/

/-- Derives the structures of nodes in order; a node's parent and entities come before it. -/
def deriveEach (d : Diagram) (layout : Layout) (naming : Naming) :
    List Node → Structures → Except StructureError Structures
  | [], known => .ok known
  | .entity e :: nodes, known => do
    let s ← liftDiagram (ofEntity d layout naming known e)
    deriveEach d layout naming nodes (known.insert e.path s)
  | .relationship r :: nodes, known => do
    let s ← ofRelationship d naming known r
    deriveEach d layout naming nodes (known.insert r.path s)
  | .attr _ :: nodes, known => deriveEach d layout naming nodes known

/-- The structures of all entities and relationships of a diagram. -/
def derive (d : Diagram) (layout : Layout) (naming : Naming) : Except StructureError Structures :=
  deriveEach d layout naming d.nodes .empty

end Structures

end EntityLayout

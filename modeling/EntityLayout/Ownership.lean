/-
# Ownership: which tables hold a node

* An entity owns a table whose grouping names it, if some column of the table holds one of
  its attributes.
* A subclass that shares its storage with its parent also owns the parent's tables.
* A relationship owns the one table whose grouping names it.

Owned tables are listed in the order of the schema.
-/
import EntityLayout.Placement
import EntityLayout.Tables.Basic
import EntityLayout.Text.Quoted

namespace EntityLayout

/-- The names of the tables that each entity and relationship owns. -/
abbrev Ownership := Register (List String)

/-- The tables of a node; none if nothing is recorded for it. -/
def Ownership.tablesOf (o : Ownership) (path : String) : List String := (o.get? path).getD []

/-- Why ownership cannot be settled. -/
inductive OwnershipError where
  | missingGrouping (relationship : String)
  | multipleGroupings (relationship : String) (tables : List String)
  | diagram (e : DiagramError)
  deriving DecidableEq, Repr

/-- The wording of a failure. -/
def OwnershipError.message : OwnershipError → String
  | .missingGrouping r => "Relationship " ++ r ++ " appears in no grouping"
  | .multipleGroupings r tables =>
    "Relationship " ++ r ++ " appears in several groupings: " ++ Text.quotedList tables
  | .diagram e => e.message

namespace Ownership

/-- Whether the grouping of a table names a node. -/
def groupingNames (groupings : List Grouping) (t : Table) (path : String) : Bool :=
  match groupings[t.grouping]? with
  | some g => g.contains path
  | none => false

/-- Whether the grouping of a table names an entity and a column holds one of its
attributes. -/
def ownsDirectly (groupings : List Grouping) (e : EntityNode) (t : Table) : Bool :=
  groupingNames groupings t e.path && e.attributes.any t.hasSource

/-- The tables that an entity has from its parent. -/
def inherited (layout : Layout) (settled : Ownership) (e : EntityNode) : List String :=
  match e.parent with
  | some parent =>
    if e.isSubclass && layout.sharesWithParent e.path then settled.tablesOf parent else []
  | none => []

/-- The tables of an entity. -/
def entityTables (layout : Layout) (groupings : List Grouping) (tables : List Table)
    (settled : Ownership) (e : EntityNode) : List String :=
  let fromParent := inherited layout settled e
  (tables.filter fun t => ownsDirectly groupings e t || fromParent.contains t.name).map Table.name

/-- The table of a relationship. -/
def relationshipTables (groupings : List Grouping) (tables : List Table) (path : String) :
    Except OwnershipError (List String) :=
  match (tables.filter fun t => groupingNames groupings t path).map Table.name with
  | [] => .error (.missingGrouping path)
  | [name] => .ok [name]
  | names => .error (.multipleGroupings path names)

/-- Settles the ownership of nodes in order; a parent comes before its subclasses. -/
def resolveEach (layout : Layout) (groupings : List Grouping) (tables : List Table) :
    List Node → Ownership → Except OwnershipError Ownership
  | [], settled => .ok settled
  | .entity e :: nodes, settled =>
    resolveEach layout groupings tables nodes
      (settled.insert e.path (entityTables layout groupings tables settled e))
  | .relationship r :: nodes, settled => do
    let owned ← relationshipTables groupings tables r.path
    resolveEach layout groupings tables nodes (settled.insert r.path owned)
  | .attr _ :: nodes, settled => resolveEach layout groupings tables nodes settled

/-- The ownership of all entities and relationships of a diagram. -/
def resolve (d : Diagram) (layout : Layout) (groupings : List Grouping) (schema : PhysicalSchema) :
    Except OwnershipError Ownership :=
  resolveEach layout groupings schema.tables d.nodes .empty

end Ownership

end EntityLayout

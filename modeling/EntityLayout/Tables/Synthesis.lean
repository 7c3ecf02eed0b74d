/-
# Making tables from groupings

Each grouping becomes a table.  Its entities become key columns, the last one first, except
that a subclass needs a key only if it stands alone; its attributes become columns in order.
Attributes whose path ends like a key are left out, because a key column stands for them.

A grouping may hold one entity twice.  Then it is the table of a relationship, and its key
columns are those of the two sides.

* `TypeRegister.ensure` makes the composite type of an attribute, those of its parts first.
* `synthesize` makes all tables and composite types.
-/
import EntityLayout.Naming
import EntityLayout.Placement
import EntityLayout.Tables.Basic

namespace EntityLayout

open Sql (SqlType)

/-! ## 1. Errors -/

/-- Why a grouping makes no table. -/
inductive GroupingFault where
  | severalRepeated (names : List String)
  | tooOften (name : String) (times : Nat)
  | repeatedNonEntity (name : String)
  | repeatedWithoutRelationship (name : String)
  | noRoles (relationship : String)
  | duplicateColumn (name : String)
  deriving DecidableEq, Repr

/-- The wording of a fault. -/
def GroupingFault.message : GroupingFault → String
  | .severalRepeated names => "more than one repeated name: " ++ String.intercalate ", " names
  | .tooOften name times => name ++ " appears " ++ Nat.repr times ++ " times"
  | .repeatedNonEntity name => "repeated name " ++ name ++ " is not an entity"
  | .repeatedWithoutRelationship name => name ++ " is repeated but no relationship is present"
  | .noRoles relationship => "self-relationship " ++ relationship ++ " declares no roles"
  | .duplicateColumn name => "duplicate column " ++ name

/-- Why no tables can be made. -/
inductive SynthesisError where
  | invalidGrouping (grouping : Nat) (fault : GroupingFault)
  /-- a relationship of a weak entity, in a grouping that repeats a name -/
  | weakEndpoint (grouping : Nat) (relationship : String)
  | missingDecision (subclass : String)
  | diagram (e : DiagramError)
  deriving DecidableEq, Repr

/-- The wording of a failure. -/
def SynthesisError.message : SynthesisError → String
  | .invalidGrouping g fault => "Invalid grouping " ++ Nat.repr g ++ ": " ++ fault.message
  | .weakEndpoint g relationship =>
    "Unsupported grouping " ++ Nat.repr g ++ ": self-relationship " ++ relationship
      ++ " involves a weak entity"
  | .missingDecision subclass => "No layout decision recorded for subclass " ++ subclass
  | .diagram e => e.message

/-- A failure to consult the diagram, as a failure of the synthesis. -/
def SynthesisError.ofDiagram {α : Type} : Except DiagramError α → Except SynthesisError α :=
  Except.mapError .diagram

/-! ## 2. Composite types -/

/-- Composite types in the order of their making. -/
abbrev TypeRegister := Register CompositeType

namespace TypeRegister

/-- The fields for parts given by path, with the composite types that `ensurePart` makes for
them. -/
def fieldsBy (d : Diagram)
    (ensurePart : AttributeNode → TypeRegister → Except DiagramError (String × TypeRegister)) :
    List String → TypeRegister → Except DiagramError (List CompositeField × TypeRegister)
  | [], types => .ok ([], types)
  | path :: paths, types => do
    let part ← d.attributeAt path
    let (type, types) ←
      if part.isComposite then do
        let (name, types) ← ensurePart part types
        pure (SqlType.composite name, types)
      else pure (SqlType.ofAttributeType part.type, types)
    let (fields, types) ← fieldsBy d ensurePart paths types
    pure (⟨Path.leaf part.path, type⟩ :: fields, types)

/-- Makes the composite type of an attribute unless there is one of its name; `depth` bounds
the nesting of its parts. -/
def ensureWithin (naming : Naming) (d : Diagram) :
    (depth : Nat) → AttributeNode → TypeRegister → Except DiagramError (String × TypeRegister)
  | 0, a, _ => .error (.misuse a.path .partOfItself)
  | depth + 1, a, types => do
    let name := naming.typeName a.path
    if types.contains name then pure (name, types)
    else
      let (fields, types) ← fieldsBy d (ensureWithin naming d depth) a.children types
      pure (name, types.insert name ⟨name, fields⟩)

/-- The composite type of an attribute by name, made if there is none of that name.  No chain
of parts is longer than the diagram has nodes. -/
def ensure (naming : Naming) (d : Diagram) (a : AttributeNode) (types : TypeRegister) :
    Except DiagramError (String × TypeRegister) :=
  ensureWithin naming d (d.nodes.length + 1) a types

end TypeRegister

/-! ## 3. Key columns -/

/-- What tables are made from. -/
structure Blueprint where
  diagram : Diagram
  layout : Layout
  naming : Naming

namespace Blueprint

/-- The nodes that a grouping names. -/
def nodesOf (b : Blueprint) (g : Grouping) : Except DiagramError (List Node) :=
  g.names.mapM b.diagram.nodeAt

/-- The name that a grouping repeats: at most one, and it comes twice. -/
def repeatedName (index : Nat) (g : Grouping) : Except SynthesisError (Option String) :=
  match g.repeated with
  | [] => .ok none
  | [name] =>
    let times := g.names.count name
    if 2 < times then .error (.invalidGrouping index (.tooOften name times)) else .ok (some name)
  | names => .error (.invalidGrouping index (.severalRepeated names))

/-- The key columns for the two sides of the first relationship among the nodes. -/
def sideKeys (b : Blueprint) (index : Nat) (name : String) (nodes : List Node) :
    Except SynthesisError (List Column) := do
  match ← SynthesisError.ofDiagram (b.diagram.nodeAt name) with
  | .entity _ =>
    match nodes.findSome? Node.relationship? with
    | none => throw (.invalidGrouping index (.repeatedWithoutRelationship name))
    | some r =>
      let (e₁, e₂) ← SynthesisError.ofDiagram (b.diagram.endpoints r.path)
      if e₁.isWeak || e₂.isWeak then throw (.weakEndpoint index r.path)
      match r.roles with
      | some (role₁, role₂) =>
        pure [.key (b.naming.roleKeyColumn role₁) e₁.path,
          .key (b.naming.roleKeyColumn role₂) e₂.path]
      | none =>
        if e₁.path = e₂.path then throw (.invalidGrouping index (.noRoles r.path))
        pure [.key (b.naming.keyColumn e₁.path) e₁.path,
          .key (b.naming.keyColumn e₂.path) e₂.path]
  | _ => throw (.invalidGrouping index (.repeatedNonEntity name))

/-- Whether an entity has a key column of its own in a table that it is part of. -/
def needsKey (b : Blueprint) (e : EntityNode) : Except SynthesisError Bool :=
  if e.isSubclass then
    match b.layout.placement? e.path with
    | some p => .ok (decide (p = .alone))
    | none => .error (.missingDecision e.path)
  else .ok true

/-! ## 4. Columns of attributes -/

/-- The column of an attribute, if it has one; `only` tells whether it is the only attribute
of its grouping. -/
def attributeColumn (b : Blueprint) (only : Bool) (a : AttributeNode) (types : TypeRegister) :
    Except SynthesisError (Option Column × TypeRegister) := do
  if b.naming.isKeyName a.path then return (none, types)
  let (type, form, types) ←
    if a.isComposite then do
      let (name, types) ← SynthesisError.ofDiagram (types.ensure b.naming b.diagram a)
      pure (SqlType.composite name, ColumnForm.composite, types)
    else
      let single := SqlType.ofAttributeType a.type
      if a.multivalued && only then pure (single, ColumnForm.normalized, types)
      else if a.multivalued then pure (single.array, ColumnForm.array, types)
      else pure (single, ColumnForm.value, types)
  let column : Column :=
    { name := Naming.columnName (Path.localPart a.path), type, source := a.path, form
      flattenedFrom := a.parent.map fun _ => Path.rootPart a.path }
  pure (some column, types)

/-- Adds the columns of nodes in order: keys in front, attributes behind.  Where a name is
repeated, the keys are there already. -/
def addColumns (b : Blueprint) (repeats only : Bool) :
    List Node → List Column → TypeRegister → Except SynthesisError (List Column × TypeRegister)
  | [], columns, types => .ok (columns, types)
  | .entity e :: nodes, columns, types => do
    let keyed ← if repeats then pure false else b.needsKey e
    if keyed then
      b.addColumns repeats only nodes (.key (b.naming.keyColumn e.path) e.path :: columns) types
    else b.addColumns repeats only nodes columns types
  | .relationship _ :: nodes, columns, types => b.addColumns repeats only nodes columns types
  | .attr a :: nodes, columns, types => do
    let (column, types) ← b.attributeColumn only a types
    b.addColumns repeats only nodes (columns ++ column.toList) types

/-- The first name that an earlier column has. -/
def duplicate? (seen : List String) : List Column → Option String
  | [] => none
  | c :: cs => if c.name ∈ seen then some c.name else duplicate? (c.name :: seen) cs

/-! ## 5. Tables -/

/-- The table of the grouping at an index. -/
def table (b : Blueprint) (index : Nat) (g : Grouping) (types : TypeRegister) :
    Except SynthesisError (Table × TypeRegister) := do
  let nodes ← SynthesisError.ofDiagram (b.nodesOf g)
  let repeated ← repeatedName index g
  let keys ← match repeated with
    | some name => b.sideKeys index name nodes
    | none => pure []
  let only := (nodes.filterMap Node.attr?).length = 1
  let (columns, types) ← b.addColumns repeated.isSome only nodes keys types
  match duplicate? [] columns with
  | some name => throw (.invalidGrouping index (.duplicateColumn name))
  | none => pure (⟨b.naming.tableName index, index, columns⟩, types)

/-- The tables of the groupings from an index on. -/
def tablesFrom (b : Blueprint) : Nat → List Grouping → TypeRegister →
    Except SynthesisError (List Table × TypeRegister)
  | _, [], types => .ok ([], types)
  | index, g :: gs, types => do
    let (t, types) ← b.table index g types
    let (ts, types) ← b.tablesFrom (index + 1) gs types
    pure (t :: ts, types)

end Blueprint

/-- The tables and composite types of a diagram under a layout. -/
def synthesize (d : Diagram) (layout : Layout) (groupings : List Grouping) (naming : Naming) :
    Except SynthesisError PhysicalSchema := do
  let (tables, types) ← (Blueprint.mk d layout naming).tablesFrom 0 groupings .empty
  pure ⟨tables, types⟩

end EntityLayout

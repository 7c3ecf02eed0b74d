/-
# Workspaces

A workspace holds a diagram while it is worked on step by step: declarations are added one by
one, and each result is derived when it is asked for, from the results that are there.  A step
that fails leaves the results as they were.
-/
import EntityLayout.Compilation

namespace EntityLayout

/-- A diagram at work, with the results so far and what they are derived under. -/
structure Workspace where
  compiled : CompiledDiagram
  schema : PhysicalSchema
  groupings : List Grouping
  naming : Naming
  /-- a diagram that was put aside -/
  saved : Diagram
  deriving DecidableEq

namespace Workspace

/-- The workspace without a diagram. -/
def start : Workspace := ⟨.empty, .empty, [], .standard, .empty⟩

instance : Inhabited Workspace := ⟨start⟩

/-! ## 1. The diagram -/

/-- The diagram. -/
def diagram (w : Workspace) : Diagram := w.compiled.diagram

/-- The workspace with another diagram, its results kept. -/
def withDiagram (w : Workspace) (d : Diagram) : Workspace :=
  { w with compiled := { w.compiled with diagram := d } }

/-- The workspace after a change to its diagram, and why the change was cut short, if it was. -/
def change (w : Workspace) (f : Diagram → Change) : Workspace × Option DiagramError :=
  let (d, cut) := f w.diagram
  (w.withDiagram d, cut)

/-- Adds an entity. -/
def addEntity (w : Workspace) (decl : EntityDecl) : Workspace × Option DiagramError :=
  w.change (Diagram.addEntity decl)

/-- Adds a relationship. -/
def addRelationship (w : Workspace) (decl : RelationshipDecl) : Workspace × Option DiagramError :=
  w.change (Diagram.addRelationship decl)

/-- Takes the diagram of a schema. -/
def build (w : Workspace) (schema : SchemaDecl) : Except DiagramError Workspace := do
  let d ← Diagram.ofDecl schema
  pure (w.withDiagram d)

/-- Puts the diagram aside. -/
def save (w : Workspace) : Workspace := { w with saved := w.diagram }

/-- Whether the diagram is the one that was put aside. -/
def isSaved (w : Workspace) : Bool := decide (w.diagram = w.saved)

/-! ## 2. Results -/

/-- Settles the layout. -/
def classify (w : Workspace) : Except LayoutError Workspace := do
  let layout ← w.diagram.classify w.groupings
  pure { w with compiled := { w.compiled with layout } }

/-- Makes the tables. -/
def synthesize (w : Workspace) : Except SynthesisError Workspace := do
  let schema ← EntityLayout.synthesize w.diagram w.compiled.layout w.groupings w.naming
  pure { w with schema }

/-- Shares out the tables. -/
def resolve (w : Workspace) : Except OwnershipError Workspace := do
  let ownership ← Ownership.resolve w.diagram w.compiled.layout w.groupings w.schema
  pure { w with compiled := { w.compiled with ownership } }

/-- Derives the structures. -/
def derive (w : Workspace) : Except StructureError Workspace := do
  let structures ← Structures.derive w.diagram w.compiled.layout w.naming
  pure { w with compiled := { w.compiled with structures } }

/-- Drops the layout. -/
def clearLayout (w : Workspace) : Workspace :=
  { w with compiled := { w.compiled with layout := .empty } }

/-- Drops the ownership. -/
def clearOwnership (w : Workspace) : Workspace :=
  { w with compiled := { w.compiled with ownership := .empty } }

/-- Drops the structures. -/
def clearStructures (w : Workspace) : Workspace :=
  { w with compiled := { w.compiled with structures := .empty } }

end Workspace

end EntityLayout

/-
# Compilation

From declarations and groupings to tables, and from tables to queries.  The diagram is built
and its layout settled; then the tables are made, shared out among the nodes, and the
structures derived that the queries have to produce.

* `Compilation.ofDecl`: the whole way from declarations.
* `Compilation.ofTexts`: the same from written declarations and groupings.
* `Compilation.load`: from the texts that an earlier compilation was written to.
-/
import EntityLayout.Document.Compiled
import EntityLayout.Document.Tables
import EntityLayout.Settings
import EntityLayout.Tables.Synthesis

namespace EntityLayout

open Sql (Dialect)

/-- Everything that a compilation results in, with the SQL that it is written as. -/
structure Compilation where
  compiled : CompiledDiagram
  schema : PhysicalSchema
  dialect : Dialect
  validate : Bool
  deriving DecidableEq

/-- Why a compilation fails. -/
inductive CompileError where
  | input (e : Json.ReadError)
  | diagram (e : DiagramError)
  | layout (e : LayoutError)
  | synthesis (e : SynthesisError)
  | ownership (e : OwnershipError)
  | structures (e : StructureError)
  | reconstruction (e : ReconstructionError)
  | load (e : LoadError)
  | settings (e : SettingsError)
  | file (fault : FileFault)
  deriving DecidableEq, Repr

/-- The wording of a failure. -/
def CompileError.message : CompileError → String
  | .input e => "Invalid input: " ++ e.message
  | .diagram e => "Graph error: " ++ e.message
  | .layout e => "Layout error: " ++ e.message
  | .synthesis e => "Synthesis error: " ++ e.message
  | .ownership e => "Mapping error: " ++ e.message
  | .structures e => "Structure error: " ++ e.message
  | .reconstruction e => "Reconstruction error: " ++ e.message
  | .load e => "Persisted graph error: " ++ e.message
  | .settings e => "Settings error: " ++ e.message
  | .file fault => "I/O error: " ++ fault.message

namespace Compilation

/-- The script that defines the tables. -/
def script (c : Compilation) : String := c.schema.script c.dialect

/-- The query for a node, whose name may be in any spelling. -/
def queryText (c : Compilation) (node : String) : Except ReconstructionError String :=
  c.compiled.queryText c.schema c.dialect c.validate node

/-- The queries for all nodes that have a structure, in order. -/
def queries (c : Compilation) : Except CompileError (List (String × String)) :=
  (c.compiled.allQueries c.schema c.dialect c.validate).mapError .reconstruction

/-- Compiles declarations under groupings. -/
def ofDecl (schema : SchemaDecl) (groupings : List Grouping) (s : Settings) :
    Except CompileError Compilation := do
  let diagram ← (Diagram.ofDecl schema).mapError .diagram
  let layout ← (diagram.classify groupings).mapError .layout
  let tables ← (synthesize diagram layout groupings s.naming).mapError .synthesis
  let ownership ← (Ownership.resolve diagram layout groupings tables).mapError .ownership
  let structures ← (Structures.derive diagram layout s.naming).mapError .structures
  pure ⟨⟨diagram, layout, ownership, structures⟩, tables, s.dialect, s.validate⟩

/-- Compiles written declarations under written groupings. -/
def ofTexts (schema groupings : String) (s : Settings) : Except CompileError Compilation := do
  let schema ← (Json.readText SchemaDecl.reader schema).mapError .input
  let groupings ← (Json.readText Grouping.listReader groupings).mapError .input
  ofDecl schema groupings s

/-- Takes up a compilation that was written before. -/
def load (diagram tables : String) (s : Settings) : Except CompileError Compilation := do
  let compiled ← (CompiledDiagram.ofText diagram).mapError .load
  let schema ← (PhysicalSchema.ofText tables).mapError .input
  pure ⟨compiled, schema, s.dialect, s.validate⟩

end Compilation

end EntityLayout

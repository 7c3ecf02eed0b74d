/-
# Compiled schemas

A compiled diagram is a diagram with everything that was derived for it: its layout, the
ownership of its tables and its structures.  Together with the tables it answers queries.
-/
import EntityLayout.Reconstruction
import EntityLayout.Tables.Basic

namespace EntityLayout

open Sql (Dialect Query)

/-- A diagram and what was derived for it. -/
structure CompiledDiagram where
  diagram : Diagram
  layout : Layout
  ownership : Ownership
  structures : Structures
  deriving DecidableEq

namespace CompiledDiagram

/-- The empty diagram, with nothing derived. -/
def empty : CompiledDiagram := ⟨.empty, .empty, .empty, .empty⟩

instance : Inhabited CompiledDiagram := ⟨empty⟩

/-- The tables of those names. -/
def tablesNamed (schema : PhysicalSchema) (node : String) :
    List String → Except ReconstructionError (List Table)
  | [] => .ok []
  | name :: names => do
    match schema.table? name with
    | none => throw (.unknownTable node name)
    | some t =>
      let ts ← tablesNamed schema node names
      pure (t :: ts)

/-- The query for a node, whose name may be in any spelling. -/
def queryFor (c : CompiledDiagram) (schema : PhysicalSchema) (node : String) :
    Except ReconstructionError Query :=
  let path := Text.lower node
  match c.structures.get? path with
  | none => .error (.unknownNode path)
  | some attributes => do
    let tables ← tablesNamed schema path (c.ownership.tablesOf path)
    Reconstruction.query path attributes tables

/-- The text of the query for a node. -/
def queryText (c : CompiledDiagram) (schema : PhysicalSchema) (d : Dialect) (validate : Bool)
    (node : String) : Except ReconstructionError String := do
  let q ← c.queryFor schema node
  Reconstruction.render d validate q

/-- The texts of the queries for several nodes, each behind its node. -/
def queryTexts (c : CompiledDiagram) (schema : PhysicalSchema) (d : Dialect) (validate : Bool) :
    List String → Except ReconstructionError (List (String × String))
  | [] => .ok []
  | node :: nodes => do
    let text ← c.queryText schema d validate node
    let rest ← c.queryTexts schema d validate nodes
    pure ((node, text) :: rest)

/-- The texts of the queries for all nodes that have a structure, in order. -/
def allQueries (c : CompiledDiagram) (schema : PhysicalSchema) (d : Dialect) (validate : Bool) :
    Except ReconstructionError (List (String × String)) :=
  c.queryTexts schema d validate c.structures.names

end CompiledDiagram

end EntityLayout

import EntityLayout.Attribute
import EntityLayout.Command.Help
import EntityLayout.Command.Request
import EntityLayout.Command.Run
import EntityLayout.Compilation
import EntityLayout.Compiled
import EntityLayout.Declaration
import EntityLayout.Diagram.Basic
import EntityLayout.Diagram.Build
import EntityLayout.Document.Compiled
import EntityLayout.Document.Schema
import EntityLayout.Document.Tables
import EntityLayout.Files.Basic
import EntityLayout.Files.Tree
import EntityLayout.Grouping
import EntityLayout.Json.Basic
import EntityLayout.Json.Binary64
import EntityLayout.Json.Draft
import EntityLayout.Json.Mismatch
import EntityLayout.Json.Numeral
import EntityLayout.Json.Print
import EntityLayout.Json.Reader
import EntityLayout.Json.Token
import EntityLayout.Main
import EntityLayout.Naming
import EntityLayout.Ownership
import EntityLayout.Path
import EntityLayout.Placement
import EntityLayout.Reconstruction
import EntityLayout.Register
import EntityLayout.Settings
import EntityLayout.Sql.Dialect
import EntityLayout.Sql.Expr
import EntityLayout.Sql.Query
import EntityLayout.Sql.Statement
import EntityLayout.Sql.Token
import EntityLayout.Structure
import EntityLayout.Tables.Basic
import EntityLayout.Tables.Synthesis
import EntityLayout.Text.Case
import EntityLayout.Text.CaseContext
import EntityLayout.Text.CaseTable
import EntityLayout.Text.Digit
import EntityLayout.Text.Quoted
import EntityLayout.Text.Visible
import EntityLayout.Toml.Basic
import EntityLayout.Toml.Outline
import EntityLayout.Toml.Reader
import EntityLayout.Toml.Scalar
import EntityLayout.Workspace
import EntityLayout.Proofs.Json.Lexing
import EntityLayout.Proofs.Text.Lower
import EntityLayout.Proofs.Attribute
import EntityLayout.Proofs.Compilation.Closure
import EntityLayout.Proofs.Compilation.Faithful
import EntityLayout.Proofs.Compilation.Joins
import EntityLayout.Proofs.Compilation.OwnerKeys
import EntityLayout.Proofs.Compilation.Provenance
import EntityLayout.Proofs.Compilation.Saving
import EntityLayout.Proofs.Compilation.Scoping
import EntityLayout.Proofs.Diagram.Consistency
import EntityLayout.Proofs.Tables.TypeOrder
import EntityLayout.Proofs.Compilation.Storage
import EntityLayout.Proofs.Compilation.Answers
import EntityLayout.Proofs.Diagram.Failures
import EntityLayout.Proofs.Tables.Failures
import EntityLayout.Proofs.Compilation.Failures
import EntityLayout.Proofs.Compilation.Sides
import EntityLayout.Proofs.Compilation.Appending
import EntityLayout.Proofs.Diagram.Alike
import EntityLayout.Proofs.Compilation.Alike
import EntityLayout.Proofs.Compilation.Caseless
import EntityLayout.Proofs.Compilation.Reordering
import EntityLayout.Proofs.Compilation.NameOrder
import EntityLayout.Proofs.Tables.Shape
import EntityLayout.Proofs.Sql.Scripts
import EntityLayout.Proofs.Sql.Queries
import EntityLayout.Proofs.Compilation.Layout
import EntityLayout.Proofs.Compilation.Contradictions
import EntityLayout.Proofs.Compilation.ColumnNames
import EntityLayout.Proofs.Compilation.Coverage
import EntityLayout.Proofs.Compilation.Multiplicity
import EntityLayout.Proofs.Compilation.Collecting
import EntityLayout.Proofs.Files.Tree
import EntityLayout.Proofs.Command.Compile
import EntityLayout.Proofs.Structure.Inheritance
import EntityLayout.Proofs.Structure.Clashes
import EntityLayout.Proofs.Reconstruction.Answer
import EntityLayout.Proofs.Diagram.Acceptance
import EntityLayout.Proofs.Document.Acceptance
import EntityLayout.Proofs.Diagram.Additions
import EntityLayout.Proofs.Diagram.Spelling
import EntityLayout.Proofs.Text.Endings
import EntityLayout.Proofs.Naming
import EntityLayout.Proofs.Sql.Quoting
import EntityLayout.Proofs.Diagram.Nesting
import EntityLayout.Proofs.Tables.TypeRequests

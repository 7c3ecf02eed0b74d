/-
# Running a command

`run` does what the arguments ask for on a file system and tells what to print.  A command
that fails prints the failure and nothing else; `compile` checks that every query can be
written before it writes the first file.
-/
import EntityLayout.Command.Help
import EntityLayout.Compilation

namespace EntityLayout.Command

open Sql (Dialect)

/-- The exit code of the program and what it prints. -/
structure Outcome where
  code : Nat
  stdout : String
  stderr : String
  deriving DecidableEq, Repr

variable {m : Type → Type} [Monad m]

/-- A step of a command. -/
abbrev Step (m : Type → Type) (α : Type) := ExceptT CompileError m α

/-- A file operation as a step. -/
def file {α : Type} (operation : m (Except FileFault α)) : Step m α :=
  ExceptT.mk do return (← operation).mapError .file

/-- The settings of a command: those of its own file or of the environment, with its own
dialect. -/
def settings (fs : FileSystem m) (named : Option String) (options : CommonOptions) :
    Step m Settings := do
  let s ← ExceptT.mk do
    let found ← match options.config with
      | some path => Settings.ofFile fs path
      | none => Settings.load fs named
    return found.mapError .settings
  pure { s with dialect := options.dialect.getD s.dialect }

/-- Compiles a schema and writes the results; tells how much was written. -/
def compile (fs : FileSystem m) (s : Settings) (schema groupings outDir : String) :
    Step m String := do
  let schema ← file (fs.read schema)
  let groupings ← file (fs.read groupings)
  let c ← ExceptT.mk (pure (Compilation.ofTexts schema groupings s))
  let _ ← ExceptT.mk (pure c.queries)
  file (fs.makeDirectories outDir)
  file (fs.write (FilePath.inside outDir "graph.json") c.compiled.toText)
  file (fs.write (FilePath.inside outDir "tables.json") c.schema.toText)
  file (fs.write (FilePath.inside outDir "schema.sql") c.script)
  pure ("Wrote " ++ Nat.repr c.schema.tables.length ++ " tables and " ++ Nat.repr c.schema.types.size
    ++ " types to " ++ outDir ++ "\n")

/-- A query as it is printed under the name of its node. -/
def namedQuery (q : String × String) : String := "-- " ++ q.1 ++ "\n" ++ q.2 ++ ";\n\n"

/-- Writes the queries of an earlier compilation, or the one for a node. -/
def queries (fs : FileSystem m) (s : Settings) (diagram tables : String) (node : Option String) :
    Step m String := do
  let diagram ← file (fs.read diagram)
  let tables ← file (fs.read tables)
  let c ← ExceptT.mk (pure (Compilation.load diagram tables s))
  match node with
  | some name =>
    let text ← ExceptT.mk (pure ((c.queryText name).mapError .reconstruction))
    pure (text ++ ";\n")
  | none =>
    let all ← ExceptT.mk (pure c.queries)
    pure (String.join (all.map namedQuery))

/-- Writes the script of tables that were written before. -/
def ddl (fs : FileSystem m) (s : Settings) (tables : String) : Step m String := do
  let tables ← file (fs.read tables)
  let schema ← ExceptT.mk (pure ((PhysicalSchema.ofText tables).mapError CompileError.input))
  pure (schema.script s.dialect)

/-- Does what is asked for; `named` is the settings file that the environment names. -/
def serve (fs : FileSystem m) (named : Option String) : Request → Step m String
  | .compile schema groupings outDir options => do
    let s ← settings fs named options
    compile fs s schema groupings outDir
  | .queries diagram tables options node => do
    let s ← settings fs named options
    queries fs s diagram tables node
  | .ddl tables options => do
    let s ← settings fs named options
    ddl fs s tables
  | .help topic => pure topic.text
  | .version => pure versionText

/-- The outcome of a request. -/
def Outcome.ofResult : Except CompileError String → Outcome
  | .ok text => ⟨0, text, ""⟩
  | .error e => ⟨1, "", "error: " ++ e.message ++ "\n"⟩

/-- Runs the program on its arguments. -/
def run (fs : FileSystem m) (named : Option String) (arguments : List String) : m Outcome :=
  match Request.ofArguments arguments with
  | none => pure ⟨2, "", usageText⟩
  | some request => do
    let result ← (serve fs named request).run
    pure (.ofResult result)

end EntityLayout.Command

/-
# Help texts

What the program says about itself and its commands.
-/
import EntityLayout.Command.Request

namespace EntityLayout.Command

/-- The name and version of the program. -/
def versionText : String := "ermap 0.1.0\n"

/-- Lines of text, each with its line break. -/
def textOfLines (lines : List String) : String := String.join (lines.map (· ++ "\n"))

/-- The lines of help on the program. -/
def programHelp : List String :=
  ["ermap - compile ER schemas to relational layouts and reconstruct them as SQL",
    "",
    "Usage: ermap <COMMAND>",
    "",
    "Commands:",
    "  compile  Classify, synthesize and resolve; write graph.json, tables.json and schema.sql",
    "  queries  Print reconstruction queries from persisted compile output",
    "  ddl      Print CREATE TYPE / CREATE TABLE statements for tables.json",
    "  help     Print this message or the help of the given subcommand(s)",
    "",
    "Options:",
    "  -h, --help     Print help",
    "  -V, --version  Print version"]

/-- The lines of help on the command `compile`. -/
def compileHelp : List String :=
  ["Classify, synthesize and resolve; write graph.json, tables.json and schema.sql",
    "",
    "Usage: ermap compile [OPTIONS] <SCHEMA> <GROUPINGS>",
    "",
    "Arguments:",
    "  <SCHEMA>     Entity/relationship records (JSON)",
    "  <GROUPINGS>  Ordered list of groupings (JSON array of arrays of node names)",
    "",
    "Options:",
    "  -o, --out-dir <OUT_DIR>  Directory the outputs are written to [default: .]",
    "  -c, --config <CONFIG>    Settings file (defaults to $ERMAP_CONFIG, then ./ermap.toml)",
    "  -d, --dialect <DIALECT>  SQL dialect, overriding the settings file [possible values: postgres, duckdb]",
    "  -h, --help               Print help"]

/-- The lines of help on the command `queries`. -/
def queriesHelp : List String :=
  ["Print reconstruction queries from persisted compile output",
    "",
    "Usage: ermap queries [OPTIONS] <GRAPH> <TABLES>",
    "",
    "Arguments:",
    "  <GRAPH>   graph.json written by `compile`",
    "  <TABLES>  tables.json written by `compile`",
    "",
    "Options:",
    "  -c, --config <CONFIG>    Settings file (defaults to $ERMAP_CONFIG, then ./ermap.toml)",
    "  -d, --dialect <DIALECT>  SQL dialect, overriding the settings file [possible values: postgres, duckdb]",
    "  -n, --node <NODE>        Only this entity or relationship",
    "  -h, --help               Print help"]

/-- The lines of help on the command `ddl`. -/
def ddlHelp : List String :=
  ["Print CREATE TYPE / CREATE TABLE statements for tables.json",
    "",
    "Usage: ermap ddl [OPTIONS] <TABLES>",
    "",
    "Arguments:",
    "  <TABLES>  tables.json written by `compile`",
    "",
    "Options:",
    "  -c, --config <CONFIG>    Settings file (defaults to $ERMAP_CONFIG, then ./ermap.toml)",
    "  -d, --dialect <DIALECT>  SQL dialect, overriding the settings file [possible values: postgres, duckdb]",
    "  -h, --help               Print help"]

/-- The lines of help on help. -/
def helpHelp : List String :=
  ["Print this message or the help of the given subcommand(s)",
    "",
    "Usage: ermap help [COMMAND]...",
    "",
    "Arguments:",
    "  [COMMAND]...  Print help for the subcommand(s)"]

/-- The help on a topic. -/
def Topic.text : Topic → String
  | .program => textOfLines programHelp
  | .compile => textOfLines compileHelp
  | .queries => textOfLines queriesHelp
  | .ddl => textOfLines ddlHelp
  | .help => textOfLines helpHelp

/-- What is said about a command line that does not fit. -/
def usageText : String :=
  "error: the arguments do not fit\n\nUsage: ermap <COMMAND>\n\n"
    ++ "For more information, try '--help'.\n"

end EntityLayout.Command

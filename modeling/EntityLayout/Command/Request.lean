/-
# The command line

`Request.ofArguments` reads the arguments of the program: a command, the files it works on, and
options.  An option takes its value from the same argument or from the next one, and is given
once.  The first argument that does not fit refuses the whole line, unless help was asked for
before it.
-/
import EntityLayout.Sql.Dialect

namespace EntityLayout.Command

open Sql (Dialect)

/-! ## 1. Requests -/

/-- What there is help on. -/
inductive Topic where
  | program
  | compile
  | queries
  | ddl
  | help
  deriving DecidableEq, Repr

/-- The options that every command takes. -/
structure CommonOptions where
  config : Option String
  dialect : Option Dialect
  deriving DecidableEq, Repr

/-- What the program is asked to do. -/
inductive Request where
  | compile (schema groupings outDir : String) (options : CommonOptions)
  | queries (diagram tables : String) (options : CommonOptions) (node : Option String)
  | ddl (tables : String) (options : CommonOptions)
  | help (topic : Topic)
  | version
  deriving DecidableEq, Repr

/-! ## 2. Commands and their options -/

/-- An option. -/
inductive Opt where
  | outDir
  | config
  | dialect
  | node
  deriving DecidableEq, Repr

/-- The letter of an option. -/
def Opt.letter : Opt → Char
  | .outDir => 'o'
  | .config => 'c'
  | .dialect => 'd'
  | .node => 'n'

/-- The long name of an option. -/
def Opt.name : Opt → String
  | .outDir => "out-dir"
  | .config => "config"
  | .dialect => "dialect"
  | .node => "node"

/-- Whether an option takes a value: a path has to be one, and a dialect is a known one. -/
def Opt.accepts : Opt → String → Bool
  | .outDir, s => !s.isEmpty
  | .config, s => !s.isEmpty
  | .dialect, s => (Dialect.named? s).isSome
  | .node, _ => true

/-- The form of a command: how many files it works on, and its options. -/
structure Form where
  files : Nat
  options : List Opt
  deriving DecidableEq, Repr

/-- What the arguments of a command give. -/
structure Given where
  files : List String
  options : List (Opt × String)
  deriving DecidableEq, Repr

namespace Given

/-- The value of an option. -/
def value? (g : Given) (o : Opt) : Option String := g.options.lookup o

/-- The options that every command takes. -/
def common (g : Given) : CommonOptions :=
  ⟨g.value? .config, (g.value? .dialect).bind Dialect.named?⟩

end Given

/-! ## 3. Arguments of a command -/

/-- How the reading of arguments ends. -/
inductive Reading where
  | given (g : Given)
  | help
  | refused
  deriving DecidableEq, Repr

/-- An argument in its parts. -/
inductive Argument where
  /-- two hyphens alone: only files follow -/
  | endOfOptions
  | long (name : String) (value : Option String)
  | short (letter : Char) (rest : List Char)
  | file (path : String)
  deriving DecidableEq, Repr

/-- Takes an argument apart. -/
def Argument.ofString (s : String) : Argument :=
  match s.toList with
  | ['-', '-'] => .endOfOptions
  | '-' :: '-' :: rest =>
    let name := String.ofList (rest.takeWhile (· != '='))
    match rest.dropWhile (· != '=') with
    | _ :: value => .long name (some (String.ofList value))
    | [] => .long name none
  | '-' :: letter :: rest => .short letter rest
  | _ => .file s

/-- The value that stands behind the letter of an option, if any does. -/
def attached? : List Char → Option String
  | [] => none
  | '=' :: value => some (String.ofList value)
  | value => some (String.ofList value)

namespace Form

/-- Takes a file. -/
def takeFile (f : Form) (path : String) (g : Given) : Option Given :=
  if path.isEmpty || decide (f.files ≤ g.files.length) then none
  else some { g with files := g.files ++ [path] }

/-- Takes files only. -/
def takeFiles (f : Form) : List String → Given → Option Given
  | [], g => some g
  | path :: paths, g => (f.takeFile path g).bind (f.takeFiles paths)

/-- Takes an option with its value. -/
def takeOption (o : Opt) (value : String) (g : Given) : Option Given :=
  if (g.value? o).isSome || !o.accepts value then none
  else some { g with options := g.options ++ [(o, value)] }

/-- Whether an argument can be the value of the option before it. -/
def canBeValue (s : String) : Bool :=
  match Argument.ofString s with
  | .file _ => true
  | _ => false

/-- The option that an argument names, and the value it has with it. -/
def option? (f : Form) : Argument → Option (Opt × Option String)
  | .long name value => (f.options.find? (·.name = name)).map fun o => (o, value)
  | .short letter rest => (f.options.find? (·.letter = letter)).map fun o => (o, attached? rest)
  | _ => none

/-- Whether an argument asks for help. -/
def asksForHelp : Argument → Bool
  | .long name value => name = "help" && value.isNone
  | .short letter _ => letter = 'h'
  | _ => false

/-- The end of the reading, where all files have to be there. -/
def finish (f : Form) (g : Option Given) : Reading :=
  match g with
  | some g => if g.files.length = f.files then .given g else .refused
  | none => .refused

/-- Reads arguments in order. -/
def read (f : Form) : List String → Given → Reading
  | [], g => f.finish (some g)
  | s :: rest, g =>
    let a := Argument.ofString s
    if asksForHelp a then .help
    else match a with
      | .endOfOptions => f.finish (f.takeFiles rest g)
      | .file path =>
        match f.takeFile path g with
        | some g => f.read rest g
        | none => .refused
      | a =>
        match f.option? a with
        | none => .refused
        | some (o, some value) =>
          match takeOption o value g with
          | some g => f.read rest g
          | none => .refused
        | some (o, none) =>
          match rest with
          | [] => .refused
          | value :: rest =>
            if canBeValue value then
              match takeOption o value g with
              | some g => f.read rest g
              | none => .refused
            else .refused

end Form

/-! ## 4. The whole line -/

/-- The request that the arguments of a command make. -/
def Request.ofReading (topic : Topic) (make : Given → Option Request) : Reading → Option Request
  | .given g => make g
  | .help => some (.help topic)
  | .refused => none

/-- The directory that is written to when none is given. -/
def currentDirectory : String := "."

/-- The request for the command of that name. -/
def Request.ofCommand (name : String) (rest : List String) : Option Request :=
  if name = "compile" then
    ofReading .compile (fun g =>
        match g.files with
        | [schema, groupings] =>
          some (.compile schema groupings ((g.value? .outDir).getD currentDirectory) g.common)
        | _ => none)
      (Form.read ⟨2, [.outDir, .config, .dialect]⟩ rest ⟨[], []⟩)
  else if name = "queries" then
    ofReading .queries (fun g =>
        match g.files with
        | [diagram, tables] => some (.queries diagram tables g.common (g.value? .node))
        | _ => none)
      (Form.read ⟨2, [.config, .dialect, .node]⟩ rest ⟨[], []⟩)
  else if name = "ddl" then
    ofReading .ddl (fun g =>
        match g.files with
        | [tables] => some (.ddl tables g.common)
        | _ => none)
      (Form.read ⟨1, [.config, .dialect]⟩ rest ⟨[], []⟩)
  else none

/-- The topics by name. -/
def Topic.byName : List (String × Topic) :=
  [("compile", .compile), ("queries", .queries), ("ddl", .ddl), ("help", .help)]

/-- The topic that help is asked on. -/
def Topic.ofArguments : List String → Option Topic
  | [] => some .program
  | [name] => byName.lookup name
  | _ => none

/-- The request of a command line, unless it does not fit. -/
def Request.ofArguments : List String → Option Request
  | [] => none
  | s :: rest =>
    match Argument.ofString s with
    | .long name none =>
      if name = "help" then some (.help .program)
      else if name = "version" then some .version
      else none
    | .short letter _ =>
      if letter = 'h' then some (.help .program)
      else if letter = 'V' then some .version
      else none
    | .file name =>
      if name = "help" then (Topic.ofArguments rest).map .help else ofCommand name rest
    | _ => none

end EntityLayout.Command

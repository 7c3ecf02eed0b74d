/-
# Settings

Settings choose the names that a layout makes up and the SQL that is written.  They are read
from a document of TOML; whatever it does not set has its standard value, and keys that are
no settings do not matter.

* `Settings.ofText`: the settings of a document.
* `Naming.fault?`: what is wrong with the names, if anything.
-/
import EntityLayout.Files.Basic
import EntityLayout.Naming
import EntityLayout.Sql.Dialect
import EntityLayout.Toml.Reader

namespace EntityLayout

open Sql (Dialect)

/-- What can be set. -/
structure Settings where
  naming : Naming
  dialect : Dialect
  /-- queries that are no SQL are refused -/
  validate : Bool
  deriving DecidableEq, Repr

namespace Settings

/-- The settings where nothing is set. -/
def standard : Settings := ⟨.standard, .postgres, true⟩

instance : Inhabited Settings := ⟨standard⟩

end Settings

/-! ## 1. Errors -/

/-- What is wrong with the parts of made-up names. -/
inductive NamingFault where
  | emptyTableStem
  | emptyTypeSuffix
  | dottedKeyModifier (modifier : String)
  deriving DecidableEq, Repr

/-- The wording of a fault. -/
def NamingFault.message : NamingFault → String
  | .emptyTableStem => "naming.table_prefix must not be empty"
  | .emptyTypeSuffix => "naming.type_suffix must not be empty"
  | .dottedKeyModifier modifier => "naming.key_modifier contains '.': " ++ modifier

/-- Why there are no settings. -/
inductive SettingsError where
  | noFile (path : String)
  | unreadableFile (fault : FileFault)
  /-- the text is no TOML, or a setting has the wrong type -/
  | malformed
  | invalid (fault : NamingFault)
  deriving DecidableEq, Repr

/-- The wording of a failure. -/
def SettingsError.message : SettingsError → String
  | .noFile path => "Config file not found: " ++ path
  | .unreadableFile fault => "Failed to read config file: " ++ fault.message
  | .malformed => "Failed to parse config file: malformed document"
  | .invalid fault => "Invalid configuration: " ++ fault.message

/-! ## 2. From TOML -/

/-- The first fault of made-up names: a table and a composite type need a name of their own,
and a dot would split the name of a key. -/
def Naming.fault? (n : Naming) : Option NamingFault :=
  if n.tableStem.isEmpty then some .emptyTableStem
  else if n.typeSuffix.isEmpty then some .emptyTypeSuffix
  else if n.keyModifier.toList.contains '.' then some (.dottedKeyModifier n.keyModifier)
  else none

namespace Settings

/-- What a document gives for fields: a table by name, an array by position.  A date gives
nothing, and any other value is wrong. -/
def fieldsOf? (names : List String) : Toml → Option (List (Option Toml))
  | .table es => some (names.map fun name => es.lookup name)
  | .array items => some (names.zipIdx.map fun p => items[p.2]?)
  | .moment _ => some (names.map fun _ => none)
  | _ => none

/-- The value of a setting: read if it is set, else its standard value. -/
def setting? {α : Type} (read : Toml → Option α) (standard : α) : Option Toml → Option α
  | some v => read v
  | none => some standard

/-- A text. -/
def text? : Toml → Option String
  | .text s => some s
  | _ => none

/-- A truth value. -/
def truth? : Toml → Option Bool
  | .bool b => some b
  | _ => none

/-- A dialect by its name, or by a table that has nothing but that name with nothing inside. -/
def dialect? : Toml → Option Dialect
  | .text s => Dialect.named? s
  | .table [(name, .table [])] => Dialect.named? name
  | .table [(name, .array [])] => Dialect.named? name
  | _ => none

/-- The parts of made-up names. -/
def naming? (v : Toml) : Option Naming := do
  match ← fieldsOf? ["key_modifier", "type_suffix", "table_prefix"] v with
  | [keyModifier, typeSuffix, tableStem] =>
    let keyModifier ← setting? text? Naming.standard.keyModifier keyModifier
    let typeSuffix ← setting? text? Naming.standard.typeSuffix typeSuffix
    let tableStem ← setting? text? Naming.standard.tableStem tableStem
    pure ⟨keyModifier, typeSuffix, tableStem⟩
  | _ => none

/-- The dialect, and whether queries are checked. -/
def output? (v : Toml) : Option (Dialect × Bool) := do
  match ← fieldsOf? ["dialect", "validate_sql"] v with
  | [dialect, validate] =>
    let dialect ← setting? dialect? standard.dialect dialect
    let validate ← setting? truth? standard.validate validate
    pure (dialect, validate)
  | _ => none

/-- The settings of a document. -/
def ofToml? (v : Toml) : Option Settings := do
  match ← fieldsOf? ["naming", "output"] v with
  | [naming, output] =>
    let naming ← setting? naming? standard.naming naming
    let (dialect, validate) ← setting? output? (standard.dialect, standard.validate) output
    pure ⟨naming, dialect, validate⟩
  | _ => none

/-- The settings of a text, if its made-up names have no fault. -/
def ofText (text : String) : Except SettingsError Settings :=
  match (Toml.ofText? text).bind ofToml? with
  | none => .error .malformed
  | some s =>
    match s.naming.fault? with
    | some fault => .error (.invalid fault)
    | none => .ok s

/-! ## 3. From files -/

section

variable {m : Type → Type} [Monad m]

/-- The settings of a file. -/
def ofFile (fs : FileSystem m) (path : String) : m (Except SettingsError Settings) := do
  if ← fs.isThere path then
    match ← fs.read path with
    | .ok text => pure (ofText text)
    | .error fault => pure (.error (.unreadableFile fault))
  else pure (.error (.noFile path))

/-- The file that settings are read from when no other is named. -/
def localFile : String := "ermap.toml"

/-- The settings of the named file, else of the local one if it is there, else the standard
ones. -/
def load (fs : FileSystem m) (named : Option String) : m (Except SettingsError Settings) := do
  match named with
  | some path => ofFile fs path
  | none =>
    if ← fs.isThere localFile then ofFile fs localFile else pure (.ok standard)

end

end Settings

end EntityLayout

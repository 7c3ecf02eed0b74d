/-
# SQL dialects and column types

Two dialects are written.  They quote identifiers alike and differ in the body of a composite
type and in the name of the aggregate that collects values into an array.
-/
import EntityLayout.Attribute

namespace EntityLayout.Sql

/-! ## 1. Dialects -/

/-- A dialect of SQL. -/
inductive Dialect where
  | postgres
  | duckdb
  deriving DecidableEq, Repr

namespace Dialect

instance : Inhabited Dialect := ⟨postgres⟩

/-- Every dialect. -/
def all : List Dialect := [postgres, duckdb]

/-- The name of the dialect. -/
def name : Dialect → String
  | postgres => "postgres"
  | duckdb => "duckdb"

/-- The dialect of exactly that name. -/
def named? (name : String) : Option Dialect := all.find? (·.name = name)

/-- The dialect of that name, in any case, under either name of the first. -/
def ofName? (s : String) : Option Dialect :=
  let small := Text.asciiLower s
  if small = "postgres" ∨ small = "postgresql" then some postgres
  else if small = "duckdb" then some duckdb
  else none

/-- The wording for a name that is no dialect's. -/
def unknown (s : String) : String := "unknown dialect: " ++ Text.asciiLower s

/-- The body of a composite type is a `STRUCT`. -/
def structBody : Dialect → Bool
  | postgres => false
  | duckdb => true

/-- The dialect's own name for a function, if it has one. -/
def functionName? (d : Dialect) (function : String) : Option String :=
  match d with
  | postgres => none
  | duckdb => if Text.upper function = "ARRAY_AGG" then some "LIST" else none

end Dialect

/-! ## 2. Identifiers -/

/-- The characters between the quotes of an identifier: a quote is written twice. -/
def doubleQuotes : List Char → List Char
  | [] => []
  | c :: cs => if c = '"' then '"' :: '"' :: doubleQuotes cs else c :: doubleQuotes cs

/-- An identifier between quotes. -/
def quoteIdentifier (s : String) : String :=
  String.ofList ('"' :: doubleQuotes s.toList ++ ['"'])

/-! ## 3. Column types -/

/-- The type of a column. -/
inductive SqlType where
  | integer
  | varchar (width : Nat)
  | text
  /-- a composite type, by its name -/
  | composite (name : String)
  | array (item : SqlType)
  deriving DecidableEq, Repr

namespace SqlType

/-- The width of every column of short text. -/
def varcharWidth : Nat := 255

/-- The type of a single value of an attribute. -/
def ofAttributeType : AttributeType → SqlType
  | .integer => .integer
  | .varchar => .varchar varcharWidth
  | .composite => .text
  | .other _ => .text

/-- The spelling of a type; all dialects agree on it. -/
def spelling : SqlType → String
  | .integer => "INTEGER"
  | .varchar n => "VARCHAR(" ++ Nat.repr n ++ ")"
  | .text => "TEXT"
  | .composite name => quoteIdentifier name
  | .array item => item.spelling ++ "[]"

end SqlType

end EntityLayout.Sql

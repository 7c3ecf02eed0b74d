/-
# Statements that define types and tables

A definition lists names with their types, one to a line.  A script is a list of statements,
each closed by a semicolon, with an empty line between two.
-/
import EntityLayout.Sql.Token

namespace EntityLayout.Sql

/-- A column of a table or a field of a composite type. -/
structure ColumnDef where
  name : String
  type : SqlType
  deriving DecidableEq, Repr

/-- A statement that defines a composite type or a table. -/
inductive Statement where
  | createType (name : String) (fields : List ColumnDef)
  | createTable (name : String) (columns : List ColumnDef)
  deriving DecidableEq, Repr

/-- The tokens of a column. -/
def ColumnDef.tokens (c : ColumnDef) : List Token := [.ident c.name, space, .sqlType c.type]

/-- The tokens of a list of columns in parentheses. -/
def columnListTokens (columns : List ColumnDef) : List Token :=
  .keyword .openParen ::
    (separated [.keyword .comma] (columns.map fun c => newItem ++ c.tokens)
      ++ [.keyword .newline, .keyword .closeParen])

namespace Statement

/-- The tokens of a statement. -/
def tokens (d : Dialect) : Statement → List Token
  | .createType name fields =>
    [.keyword .create, space, .keyword .type, space, .ident name, space, .keyword .as, space]
      ++ (if d.structBody then [.keyword .struct] else []) ++ columnListTokens fields
  | .createTable name columns =>
    [.keyword .create, space, .keyword .table, space, .ident name, space]
      ++ columnListTokens columns

/-- The text of a statement, without a semicolon. -/
def text (d : Dialect) (s : Statement) : String := render d (s.tokens d)

end Statement

/-- The tokens of a script. -/
def scriptTokens (d : Dialect) (statements : List Statement) : List Token :=
  match statements with
  | [] => []
  | ss =>
    separated [.keyword .newline, .keyword .newline]
      (ss.map fun s => s.tokens d ++ [.keyword .semicolon]) ++ [.keyword .newline]

/-- The text of a script. -/
def script (d : Dialect) (statements : List Statement) : String :=
  render d (scriptTokens d statements)

end EntityLayout.Sql

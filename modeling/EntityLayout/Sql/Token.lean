/-
# SQL tokens

Statements are lists of tokens, blanks and line breaks among them.  A token is spelled out
only when it is written for a dialect.
-/
import EntityLayout.Sql.Dialect

namespace EntityLayout.Sql

/-- A word or mark that is spelled the same everywhere. -/
inductive Keyword where
  | select
  | from
  | as
  | on
  | join
  | inner
  | groupBy
  | create
  | table
  | type
  | struct
  | comma
  | openParen
  | closeParen
  | semicolon
  | equals
  | space
  | newline
  deriving DecidableEq, Repr

/-- The spelling of a word or mark. -/
def Keyword.spelling : Keyword → String
  | .select => "SELECT"
  | .from => "FROM"
  | .as => "AS"
  | .on => "ON"
  | .join => "JOIN"
  | .inner => "INNER"
  | .groupBy => "GROUP BY"
  | .create => "CREATE"
  | .table => "TABLE"
  | .type => "TYPE"
  | .struct => "STRUCT"
  | .comma => ","
  | .openParen => "("
  | .closeParen => ")"
  | .semicolon => ";"
  | .equals => "="
  | .space => " "
  | .newline => "\n"

/-- A token of SQL. -/
inductive Token where
  | keyword (k : Keyword)
  /-- the blanks at the start of a line, two to a level -/
  | indent (levels : Nat)
  | ident (name : String)
  | qualified (qualifier : Option String) (name : String)
  | sqlType (t : SqlType)
  | function (name : String)
  deriving DecidableEq, Repr

/-- The text of a token in a dialect. -/
def Token.text (d : Dialect) : Token → String
  | .keyword k => k.spelling
  | .indent n => String.ofList (List.replicate (2 * n) ' ')
  | .ident name => quoteIdentifier name
  | .qualified (some q) name => quoteIdentifier q ++ "." ++ quoteIdentifier name
  | .qualified none name => quoteIdentifier name
  | .sqlType t => t.spelling
  | .function name =>
    match d.functionName? name with
    | some own => Text.upper own
    | none => Text.upper name

/-- The text of tokens in a dialect, one after another. -/
def render (d : Dialect) (tokens : List Token) : String := String.join (tokens.map (Token.text d))

/-- A space. -/
def space : Token := .keyword .space

/-- A line break and the blanks of one level. -/
def newItem : List Token := [.keyword .newline, .indent 1]

/-- Lists of tokens with a separator between them. -/
def separated (separator : List Token) : List (List Token) → List Token
  | [] => []
  | [ts] => ts
  | ts :: us :: rest => ts ++ separator ++ separated separator (us :: rest)

end EntityLayout.Sql

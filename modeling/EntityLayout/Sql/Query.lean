/-
# SQL queries

A query selects items from one table and the tables joined to it, and may group by some of
them.  It is written with one item to a line.
-/
import EntityLayout.Sql.Expr

namespace EntityLayout.Sql

/-- An item of the select list, with the name it is given. -/
structure SelectItem where
  expr : Expr
  label : Option String
  deriving DecidableEq, Repr

/-- A table that is joined where a condition holds. -/
structure Join where
  table : String
  condition : Expr
  deriving DecidableEq, Repr

/-- A query. -/
structure Query where
  select : List SelectItem
  source : Option String
  joins : List Join
  groupBy : List Expr
  deriving DecidableEq, Repr

/-- The tokens of an item of the select list. -/
def SelectItem.tokens (item : SelectItem) : List Token :=
  item.expr.tokens ++
    match item.label with
    | some name => [space, .keyword .as, space, .ident name]
    | none => []

/-- The tokens of a join. -/
def Join.tokens (join : Join) : List Token :=
  [.keyword .inner, space, .keyword .join, space, .ident join.table, space, .keyword .on, space]
    ++ join.condition.tokens

namespace Query

/-- The tokens of the select list, each item on a line of its own. -/
def selectTokens (q : Query) : List Token :=
  match q.select with
  | [] => []
  | items => newItem ++ separated (.keyword .comma :: newItem) (items.map SelectItem.tokens)

/-- The tokens of the clause that names the table. -/
def sourceTokens (q : Query) : List Token :=
  match q.source with
  | some table => [.keyword .newline, .keyword .from, space, .ident table]
  | none => []

/-- The tokens of the joins, each on a line of its own. -/
def joinTokens (q : Query) : List Token :=
  q.joins.flatMap fun j => .keyword .newline :: j.tokens

/-- The tokens of the grouping clause. -/
def groupTokens (q : Query) : List Token :=
  match q.groupBy with
  | [] => []
  | es => [.keyword .newline, .keyword .groupBy, space]
      ++ separated [.keyword .comma, space] (es.map Expr.tokens)

/-- The tokens of a query. -/
def tokens (q : Query) : List Token :=
  .keyword .select :: (q.selectTokens ++ q.sourceTokens ++ q.joinTokens ++ q.groupTokens)

/-- The text of a query in a dialect. -/
def text (d : Dialect) (q : Query) : String := render d q.tokens

/-- Whether a reader of SQL accepts the query: it has to select something. -/
def isReadable (q : Query) : Bool := !q.select.isEmpty

end Query

end EntityLayout.Sql

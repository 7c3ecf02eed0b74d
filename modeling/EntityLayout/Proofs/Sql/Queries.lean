/-
# The text of a query tells the query

A query that reconstructs a node selects columns and collected columns, each under a name, from
tables joined on two columns, and groups by columns.  Such a query can be read back from its text:
a clause begins with a line break and a word, and no other part begins like that behind it.

* `Query.IsPlain`: the queries of that shape.
* `Query.text_inj`: **two plain queries with the same text are equal.**
* `Reconstruction.query_inj`: **so are two queries that reconstruct nodes**, whatever the nodes,
  their structures and their tables are called.
-/
import EntityLayout.Proofs.Reconstruction
import EntityLayout.Proofs.Sql.Readable

namespace EntityLayout.Sql

variable {d : Dialect}

/-! ## 1. Columns -/

/-- A column of a named table. -/
def Expr.IsColumn (e : Expr) : Prop := ∃ table name, .column (some table) name = e

theorem readable_columnExpr : Readable EndsName Expr.IsColumn fun e => chars d e.tokens := by
  have hparts := readable_quoteIdentifier.append (readable_quoteIdentifier.behind ".".toList)
    fun _ _ r _ => by simp [EndsName]
  have hcolumn := hparts.image (fun p => Expr.column (some p.1) p.2) (fun e => chars d e.tokens)
    fun p _ => by simp [Expr.tokens, Token.text]
  refine hcolumn.mono (fun _ h => h) ?_
  rintro _ ⟨table, name, rfl⟩
  exact ⟨(table, name), ⟨trivial, trivial⟩, rfl⟩

/-- The aggregate as the dialect calls it. -/
def aggregateChars (d : Dialect) : List Char := ((Token.function "ARRAY_AGG").text d).toList

theorem aggregateChars_eq (d : Dialect) :
    aggregateChars d = "ARRAY_AGG".toList ∨ aggregateChars d = "LIST".toList := by
  cases d with
  | postgres => exact .inl (by decide +kernel)
  | duckdb => exact .inr (by decide +kernel)

theorem chars_arrayAgg (e : Expr) : chars d e.arrayAgg.tokens =
    (aggregateChars d ++ "(".toList) ++ (chars d e.tokens ++ ")".toList) := by
  simp [Expr.arrayAgg, Expr.tokens, Expr.tokensOf, separated, aggregateChars, Token.text,
    Keyword.spelling]

/-- What is selected: a column, or all its values collected. -/
def Expr.IsSelected (e : Expr) : Prop := e.IsColumn ∨ ∃ c : Expr, c.IsColumn ∧ c.arrayAgg = e

/-- A column begins with a quote and a collected one with a letter. -/
theorem readable_selected : Readable EndsName Expr.IsSelected fun e => chars d e.tokens := by
  have hcollected := (((readable_columnExpr (d := d)).closed ")".toList
    fun r => by simp [EndsName]).behind (aggregateChars d ++ "(".toList)).image Expr.arrayAgg
      (fun e => chars d e.tokens) fun e _ => chars_arrayAgg e
  refine readable_columnExpr.or (hcollected.mono (fun _ _ => trivial) fun _ h => h) ?_
  rintro _ _ ⟨table, name, rfl⟩ ⟨c, -, rfl⟩ r s heq
  rw [chars_arrayAgg] at heq
  rcases aggregateChars_eq d with h | h <;>
    simp [h, Expr.tokens, Token.text, toList_quoteIdentifier] at heq

/-! ## 2. Items and joins -/

/-- What is selected has a name. -/
def SelectItem.IsPlain (item : SelectItem) : Prop :=
  ∃ e name, e.IsSelected ∧ ⟨e, some name⟩ = item

theorem readable_item :
    Readable EndsName SelectItem.IsPlain fun item => chars d item.tokens := by
  have hparts := (readable_selected (d := d)).append
    (readable_quoteIdentifier.behind " AS ".toList) fun _ _ r _ => by simp [EndsName]
  have hitem := hparts.image (fun p => SelectItem.mk p.1 (some p.2))
    (fun item => chars d item.tokens) fun p _ => by simp [SelectItem.tokens, space, Token.text, Keyword.spelling]
  refine hitem.mono (fun _ h => h) ?_
  rintro _ ⟨e, name, he, rfl⟩
  exact ⟨(e, name), ⟨he, trivial⟩, rfl⟩

/-- The tables are joined on two columns. -/
def Join.IsPlain (j : Join) : Prop :=
  ∃ table left right, Expr.IsColumn left ∧ Expr.IsColumn right ∧ ⟨table, .equal left right⟩ = j

/-- A join without the words it begins with. -/
def Join.joined (j : Join) : List Token :=
  [.ident j.table, space, .keyword .on, space] ++ j.condition.tokens

theorem readable_joined : Readable EndsName Join.IsPlain fun j => chars d j.joined := by
  have hcondition := (readable_columnExpr (d := d)).append
    ((readable_columnExpr (d := d)).behind " = ".toList) fun _ _ r _ => by simp [EndsName]
  have hparts := readable_quoteIdentifier.append (hcondition.behind " ON ".toList)
    fun _ _ r _ => by simp [EndsName]
  have hjoin := hparts.image (fun p => Join.mk p.1 (.equal p.2.1 p.2.2)) (fun j => chars d j.joined)
    fun p _ => by simp [Join.joined, Expr.tokens, space, Token.text, Keyword.spelling]
  refine hjoin.mono (fun _ h => h) ?_
  rintro _ ⟨table, left, right, hl, hr, rfl⟩
  exact ⟨(table, left, right), ⟨trivial, hl, hr⟩, rfl⟩

/-! ## 3. Queries -/

namespace Query

/-- The shape of queries that reconstruct: columns and collected columns under names, from tables
joined on two columns, grouped by columns. -/
structure IsPlain (q : Query) : Prop where
  select : ∀ item ∈ q.select, item.IsPlain
  source : ∃ table, q.source = some table
  joins : ∀ j ∈ q.joins, j.IsPlain
  groupBy : ∀ e ∈ q.groupBy, e.IsColumn

theorem chars_selectTokens (q : Query) : chars d q.selectTokens =
    listed "\n  ".toList ",\n  ".toList (fun item => chars d item.tokens) q.select := by
  rw [selectTokens]
  cases q.select with
  | nil => rfl
  | cons item items =>
    dsimp only
    rw [chars_append, chars_separated]
    simp [listed, newItem, Token.text, Keyword.spelling]

theorem chars_joinTokens (q : Query) : chars d q.joinTokens =
    ledBy "\nINNER JOIN ".toList (fun j => chars d j.joined) q.joins := by
  simp [joinTokens, chars, ledBy, List.flatMap_assoc, Join.tokens, Join.joined, space, Token.text,
    Keyword.spelling]

theorem chars_groupTokens (q : Query) : chars d q.groupTokens =
    listed "\nGROUP BY ".toList ", ".toList (fun e => chars d e.tokens) q.groupBy := by
  rw [groupTokens]
  cases q.groupBy with
  | nil => rfl
  | cons e es =>
    dsimp only
    rw [chars_append, chars_separated]
    simp [listed, space, Token.text, Keyword.spelling]

/-- What stands behind the name of the first table. -/
def clauses (d : Dialect) (joins : List Join) (groupBy : List Expr) : List Char :=
  ledBy "\nINNER JOIN ".toList (fun j => chars d j.joined) joins ++
    listed "\nGROUP BY ".toList ", ".toList (fun e => chars d e.tokens) groupBy

theorem chars_tokens (q : Query) {table : String} (h : q.source = some table) :
    chars d q.tokens = "SELECT".toList ++
      (listed "\n  ".toList ",\n  ".toList (fun item => chars d item.tokens) q.select ++
        ("\nFROM ".toList ++ ((quoteIdentifier table).toList ++ clauses d q.joins q.groupBy))) := by
  rw [tokens, chars_cons, chars_append, chars_append, chars_append, chars_selectTokens,
    chars_joinTokens, chars_groupTokens]
  simp [sourceTokens, h, clauses, space, Token.text, Keyword.spelling]

/-- The grouping clause stands at the end of a query. -/
theorem readable_groupBy : Readable (fun r => r = []) (fun es => ∀ e ∈ es, e.IsColumn)
    (listed "\nGROUP BY ".toList ", ".toList fun e : Expr => chars d e.tokens) :=
  ((readable_columnExpr (d := d)).listed _ _ fun t => by simp [EndsName]).mono
    (fun r hr => by simp [hr, EndsName]) fun _ h => h

theorem readable_clauses : Readable (fun r => r = [])
    (fun p : List Join × List Expr => (∀ j ∈ p.1, j.IsPlain) ∧ ∀ e ∈ p.2, e.IsColumn)
    fun p => clauses d p.1 p.2 := by
  have hjoins := (readable_joined (d := d)).ledBy "\nINNER JOIN ".toList
    fun t => by simp [EndsName]
  refine hjoins.append readable_groupBy ?_
  rintro es - _ rfl
  cases es with
  | nil => simp [listed, EndsName]
  | cons e es => simp [listed, EndsName]

theorem endsName_clauses (d : Dialect) : ∀ (joins : List Join) (groupBy : List Expr),
    EndsName (clauses d joins groupBy)
  | [], [] => by simp [clauses, ledBy, listed, EndsName]
  | [], e :: es => by simp [clauses, ledBy, listed, EndsName]
  | j :: js, es => by simp [clauses, ledBy, EndsName]

/-- **Two plain queries with the same text are equal.** -/
theorem text_inj {q q' : Query} (hq : q.IsPlain) (hq' : q'.IsPlain)
    (h : q.text d = q'.text d) : q = q' := by
  obtain ⟨select, source, joins, groupBy⟩ := q
  obtain ⟨select', source', joins', groupBy'⟩ := q'
  obtain ⟨hselect, ⟨table, rfl⟩, hjoins, hgroupBy⟩ := hq
  obtain ⟨hselect', ⟨table', rfl⟩, hjoins', hgroupBy'⟩ := hq'
  replace h := congrArg String.toList h
  rw [text, text, toList_render, toList_render, chars_tokens _ rfl, chars_tokens _ rfl] at h
  -- the list of items ends at the line break before `FROM`, which no item begins with
  have hitems := (readable_item (d := d)).listed "\n  ".toList ",\n  ".toList
    fun t => by simp [EndsName]
  obtain ⟨rfl, hrest⟩ := hitems hselect hselect' (by simp [EndsName]) (by simp [EndsName])
    (List.append_cancel_left h)
  obtain ⟨rfl, hrest⟩ := readable_quoteIdentifier trivial trivial (endsName_clauses d _ _)
    (endsName_clauses d _ _) (List.append_cancel_left hrest)
  have hclauses := (readable_clauses (d := d)).inj rfl (a := (joins, groupBy))
    (b := (joins', groupBy')) ⟨hjoins, hgroupBy⟩ ⟨hjoins', hgroupBy'⟩ hrest
  obtain ⟨rfl, rfl⟩ := Prod.mk.inj hclauses
  rfl

/-- Other queries may share their text: functions are called by capital letters. -/
example : (⟨[⟨.call "max" [], none⟩], none, [], []⟩ : Query).text d =
    (⟨[⟨.call "MAX" [], none⟩], none, [], []⟩ : Query).text d := by
  cases d <;> decide +kernel

end Query

end EntityLayout.Sql

namespace EntityLayout.Reconstruction

open Sql (Expr SelectItem Join Query Dialect)

variable {node node' : String} {tables tables' : List Table} {as as' : List Attribute}
  {q q' : Query}

/-! ## 4. Queries that reconstruct -/

theorem isColumn_columnOf (t : Table) (c : Column) : (columnOf t c).IsColumn :=
  ⟨t.name, c.name, rfl⟩

theorem isPlain_itemsFor {a : Attribute} {items : List SelectItem}
    (h : itemsFor node tables a = .ok items) : ∀ item ∈ items, item.IsPlain := by
  intro item hitem
  rcases itemsFor_eq_ok.mp h with ⟨t, c, -, rfl⟩ | ⟨-, -, rfl, -⟩
  · obtain rfl := List.mem_singleton.mp hitem
    refine ⟨_, _, ?_, rfl⟩
    split
    · exact .inr ⟨_, isColumn_columnOf t c, rfl⟩
    · exact .inl (isColumn_columnOf t c)
  · obtain ⟨t, -, c, -, -, rfl⟩ := mem_flattenedItems.mp hitem
    exact ⟨_, _, .inl (isColumn_columnOf t c), rfl⟩

theorem isAggregate_arrayAgg (e : Expr) : e.arrayAgg.isAggregate = true := by
  simp only [Expr.arrayAgg, Expr.isAggregate]
  decide +kernel

/-- What is grouped by is not collected. -/
theorem isColumn_of_mem_groupBy {items : List SelectItem} (h : ∀ item ∈ items, item.IsPlain) :
    ∀ e ∈ groupBy items, e.IsColumn := by
  intro e he
  unfold groupBy at he
  split at he
  · obtain ⟨item, hitem, rfl⟩ := List.mem_map.mp he
    obtain ⟨hitem, hplain⟩ := List.mem_filter.mp hitem
    obtain ⟨e, name, hcolumn | ⟨c, -, rfl⟩, rfl⟩ := h item hitem
    · exact hcolumn
    · simp [isAggregate_arrayAgg] at hplain
  · exact absurd he List.not_mem_nil

theorem isPlain_query (h : query node as tables = .ok q) : q.IsPlain := by
  obtain ⟨anchor, others, js, parts, rfl, hjs, hparts, rfl⟩ := query_eq_ok.mp h
  have hselect : ∀ item ∈ parts.flatten, item.IsPlain := by
    intro item hitem
    obtain ⟨is, his, hitem⟩ := List.mem_flatten.mp hitem
    obtain ⟨a, -, ha⟩ := exists_of_mem_right hparts his
    exact isPlain_itemsFor ha item hitem
  refine ⟨hselect, ⟨anchor.name, rfl⟩, fun j hj => ?_, isColumn_of_mem_groupBy hselect⟩
  rcases joins_eq_ok.mp hjs with ⟨-, rfl⟩ | ⟨-, key, -, hall⟩
  · exact absurd hj List.not_mem_nil
  · obtain ⟨t, -, c, -, rfl⟩ := exists_of_mem_right hall hj
    exact ⟨_, _, _, isColumn_columnOf anchor key, isColumn_columnOf t c, rfl⟩

/-- **Two queries that reconstruct nodes are equal if they have the same text** in some dialect,
whatever the nodes, their structures and their tables are called. -/
theorem query_inj {d : Dialect} (h : query node as tables = .ok q)
    (h' : query node' as' tables' = .ok q') (htext : q.text d = q'.text d) : q = q' :=
  Query.text_inj (isPlain_query h) (isPlain_query h') htext

/-- Two tables named like the middle of a query; the second has one value of an attribute to a
row, of the type given. -/
def disguisedTables (type : Sql.SqlType) : List Table :=
  [⟨"a\"\nINNER JOIN \"b", 0, [.key "\".\"" "owner", ⟨"x\" AS \"y", .text, "", .value, none⟩]⟩,
    ⟨"\nGROUP BY ", 1, [.key "owner_id" "owner", ⟨"values", type, "", .normalized, none⟩]⟩]

/-- What is selected from these tables. -/
def disguisedAttributes (type : AttributeType) : List Attribute :=
  [⟨"x\" AS \"y", .other "text", false, false, false, []⟩,
    ⟨"values", type, false, false, true, []⟩]

/-- The query over these tables. -/
def disguisedQuery : Query :=
  let anchor := Expr.column (some "a\"\nINNER JOIN \"b")
  ⟨[⟨anchor "x\" AS \"y", some "x\" AS \"y"⟩,
      ⟨(Expr.column (some "\nGROUP BY ") "values").arrayAgg, some "values"⟩],
    some "a\"\nINNER JOIN \"b",
    [⟨"\nGROUP BY ", .equal (anchor "\".\"") (.column (some "\nGROUP BY ") "owner_id")⟩],
    [anchor "x\" AS \"y"]⟩

/-- The names do not disguise the query, which two nodes share whose values differ in type. -/
theorem query_inj_disguised : ∃ q q' : Query,
    query "owner" (disguisedAttributes .integer) (disguisedTables .integer) = .ok q ∧
      query "renter" (disguisedAttributes .varchar) (disguisedTables .text) = .ok q' ∧ q = q' := by
  have h : query "owner" (disguisedAttributes .integer) (disguisedTables .integer) =
      .ok disguisedQuery := by decide +kernel
  have h' : query "renter" (disguisedAttributes .varchar) (disguisedTables .text) =
      .ok disguisedQuery := by decide +kernel
  exact ⟨_, _, h, h', query_inj (d := .duckdb) h h' rfl⟩

end EntityLayout.Reconstruction

/-
# What scripts define and what queries name

A query is well scoped against a script if it names tables that the script creates and columns
that these tables have.  A script itself has to define the types before it uses them.

* `Query.tables`, `Query.references`: the tables and the columns that a query names.
* `tableDefs`: the definitions of a table in a script.
* `Query.IsWellScoped`: every name means exactly one thing.
* `typesDefined`, `Statement.usedTypes`: the types that statements create and use.
* `DefinesBeforeUse`: no type is used before it is created.
-/
import EntityLayout.Sql.Query
import EntityLayout.Sql.Statement

namespace EntityLayout.Sql

/-! ## 1. What a query names -/

mutual

/-- The columns that an expression refers to, with their qualifiers. -/
def Expr.references : Expr → List (Option String × String)
  | .column table name => [(table, name)]
  | .equal left right => left.references ++ right.references
  | .call _ arguments => referencesOf arguments

/-- The columns that several expressions refer to. -/
def Expr.referencesOf : List Expr → List (Option String × String)
  | [] => []
  | e :: es => e.references ++ referencesOf es

end

namespace Query

/-- The tables of a query: the one it selects from and those joined to it. -/
def tables (q : Query) : List String := q.source.toList ++ q.joins.map Join.table

/-- The columns that a query refers to: in its items, its joins and its groups. -/
def references (q : Query) : List (Option String × String) :=
  (q.select.flatMap fun item => item.expr.references)
    ++ (q.joins.flatMap fun join => join.condition.references)
    ++ q.groupBy.flatMap Expr.references

end Query

/-! ## 2. What a script creates -/

/-- The columns that a statement gives the table of that name, if it creates it. -/
def Statement.tableDef? (name : String) : Statement → Option (List ColumnDef)
  | .createType _ _ => none
  | .createTable created columns => if created = name then some columns else none

/-- The definitions of the table of that name, one for every statement that creates it. -/
def tableDefs (script : List Statement) (name : String) : List (List ColumnDef) :=
  script.filterMap (Statement.tableDef? name)

/-- **Every name in the query means exactly one thing**: its tables differ, each is created once,
and every reference is qualified by one of them and names exactly one of its columns. -/
structure Query.IsWellScoped (q : Query) (script : List Statement) : Prop where
  source : q.source.isSome
  distinct : q.tables.Nodup
  created : ∀ name ∈ q.tables, ∃ columns, tableDefs script name = [columns]
  resolved : ∀ ref ∈ q.references, ∃ name ∈ q.tables, ref.1 = some name ∧
    ∀ columns ∈ tableDefs script name, (columns.map ColumnDef.name).count ref.2 = 1

/-! ## 3. Types before their uses -/

/-- The composite type that a type is, or that its items are of. -/
def SqlType.composite? : SqlType → Option String
  | .composite name => some name
  | .array item => item.composite?
  | _ => none

/-- The type that a statement creates. -/
def Statement.typeName? : Statement → Option String
  | .createType name _ => some name
  | .createTable _ _ => none

/-- The composite types that the columns or fields of a statement are of. -/
def Statement.usedTypes : Statement → List String
  | .createType _ fields => fields.filterMap (·.type.composite?)
  | .createTable _ columns => columns.filterMap (·.type.composite?)

/-- The types that a script creates, in order. -/
def typesDefined (script : List Statement) : List String := script.filterMap Statement.typeName?

/-- Every type that a statement uses is created by one before it. -/
def IsInOrder (script : List Statement) : Prop := ∀ before s after, script = before ++ s :: after →
  ∀ name ∈ s.usedTypes, name ∈ typesDefined before

/-- **No type is used before it is created**: no type is created twice, types come before
tables, and every type that a statement uses is created by one before it. -/
structure DefinesBeforeUse (script : List Statement) : Prop where
  once : (typesDefined script).Nodup
  typesFirst : script.Pairwise fun s t => t.typeName?.isSome → s.typeName?.isSome
  inOrder : IsInOrder script

theorem isInOrder_nil : IsInOrder [] := fun before _ _ h =>
  absurd h.symm (List.append_ne_nil_of_right_ne_nil before (List.cons_ne_nil _ _))

/-- Statements can be added that use only types created before. -/
theorem IsInOrder.append {ss ts : List Statement} (h : IsInOrder ss)
    (hts : ∀ t ∈ ts, ∀ name ∈ t.usedTypes, name ∈ typesDefined ss) : IsInOrder (ss ++ ts) := by
  intro before s after hsplit name hname
  rcases List.append_eq_append_iff.mp hsplit with ⟨mid, rfl, rfl⟩ | ⟨mid, rfl, hmid⟩
  · -- `s` is one of the new statements
    rw [typesDefined, List.filterMap_append]
    exact List.mem_append_left _ (hts s (by simp) name hname)
  · cases mid with
    | nil =>
      have hs : s ∈ ts := by
        rw [List.nil_append] at hmid
        rw [← hmid]
        exact List.mem_cons_self
      simpa using hts s hs name hname
    | cons s' mid =>
      obtain ⟨rfl, rfl⟩ := List.cons.inj hmid
      exact h before s mid rfl name hname

end EntityLayout.Sql

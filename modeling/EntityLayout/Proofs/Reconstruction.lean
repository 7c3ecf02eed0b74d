/-
# What a query consists of

The query for a structure is put together item by item and table by table.

* `Reconstruction.itemsForAll_eq_ok`: the items follow the attributes.
* `Reconstruction.joins_eq_ok`: every further table is joined with the first on their keys.
* `Reconstruction.query_eq_ok`: **when there is a query, and what it is.**
* `Reconstruction.references_query`: it refers to columns of its tables only.
-/
import EntityLayout.Proofs.Outcome
import EntityLayout.Proofs.Sql.Scope
import EntityLayout.Reconstruction

namespace EntityLayout.Reconstruction

open Sql (Expr SelectItem Join Query)

variable {node : String} {tables : List Table}

/-! ## 1. Items -/

theorem itemsForAll_eq_ok : ∀ {as : List Attribute} {items : List SelectItem},
    itemsForAll node tables as = .ok items ↔ ∃ parts,
      List.Forall₂ (fun a is => itemsFor node tables a = .ok is) as parts ∧ items = parts.flatten
  | [], items => by
    simp only [itemsForAll, Except.ok.injEq, List.forall₂_nil_left_iff, exists_eq_left,
      List.flatten_nil, eq_comm]
  | a :: as, items => by
    simp only [itemsForAll, bind_eq_ok, pure_eq_ok, itemsForAll_eq_ok]
    constructor
    · rintro ⟨is, his, rest, ⟨parts, hparts, rfl⟩, rfl⟩
      exact ⟨is :: parts, .cons his hparts, rfl⟩
    · rintro ⟨_, hall, rfl⟩
      obtain ⟨is, parts, his, hparts, rfl⟩ := List.forall₂_cons_left_iff.mp hall
      exact ⟨is, his, parts.flatten, ⟨parts, hparts, rfl⟩, rfl⟩

theorem direct?_eq_some {name : String} {t : Table} {c : Column}
    (h : direct? tables name = some (t, c)) :
    t ∈ tables ∧ c ∈ t.columns ∧ c.name = name := by
  obtain ⟨u, hu, h⟩ := List.exists_of_findSome?_eq_some h
  obtain ⟨d, hd, h⟩ := Option.map_eq_some_iff.mp h
  obtain ⟨rfl, rfl⟩ := Prod.mk.inj h
  exact ⟨hu, List.mem_of_find?_eq_some hd, by simpa using List.find?_some hd⟩

/-- The column of a name is looked for in the tables in order. -/
theorem le_of_direct? {name : String} {t : Table} {c : Column}
    (h : direct? tables name = some (t, c))
    (hsorted : tables.Pairwise fun t u => t.grouping < u.grouping) :
    ∀ u ∈ tables, ∀ d ∈ u.columns, d.name = name → t.grouping ≤ u.grouping := by
  obtain ⟨before, v, after, rfl, hv, hbefore⟩ := List.findSome?_eq_some_iff.mp h
  obtain ⟨e, -, hpair⟩ := Option.map_eq_some_iff.mp hv
  obtain ⟨rfl, rfl⟩ := Prod.mk.inj hpair
  intro u hu d hd hname
  rcases List.mem_append.mp hu with hu | hu
  · have hnone : u.columns.find? (·.name = name) = none :=
      Option.map_eq_none_iff.mp (hbefore u hu)
    exact absurd hname (by simpa using List.find?_eq_none.mp hnone d hd)
  · rcases List.mem_cons.mp hu with rfl | hu
    · exact Nat.le_refl _
    · exact Nat.le_of_lt ((List.pairwise_cons.mp (List.pairwise_append.mp hsorted).2.1).1 u hu)

theorem direct?_eq_none {name : String} :
    direct? tables name = none ↔ ∀ t ∈ tables, ∀ c ∈ t.columns, c.name ≠ name := by
  simp [direct?, Table.column?, List.findSome?_eq_none_iff]

/-- A column of the name is found if there is one. -/
theorem exists_direct? {name : String} {t : Table} {c : Column} (ht : t ∈ tables)
    (hc : c ∈ t.columns) (hname : c.name = name) : ∃ u d, direct? tables name = some (u, d) := by
  cases hdirect : direct? tables name with
  | some p => exact ⟨p.1, p.2, rfl⟩
  | none => exact absurd hname (direct?_eq_none.mp hdirect t ht c hc)

/-- Collecting the values of a column refers to the column. -/
theorem references_directItem (name : String) (t : Table) (c : Column) :
    (directItem name t c).expr.references = [(some t.name, c.name)] := by
  unfold directItem
  dsimp only
  split <;> simp [columnOf, Expr.arrayAgg, Expr.references, Expr.referencesOf]

/-- An item reads a column of one of the tables. -/
def Reads (tables : List Table) (item : SelectItem) (t : Table) (c : Column) : Prop :=
  t ∈ tables ∧ c ∈ t.columns ∧ item.expr.references = [(some t.name, c.name)]

/-- The items for an attribute: a column of its name, or else all that was split out of it. -/
theorem itemsFor_eq_ok {a : Attribute} {items : List SelectItem} :
    itemsFor node tables a = .ok items ↔
      (∃ t c, direct? tables a.name = some (t, c) ∧ items = [directItem a.name t c]) ∨
        direct? tables a.name = none ∧ a.isComposite = true ∧
          items = flattenedItems tables a.name ∧ items ≠ [] := by
  unfold itemsFor
  cases hdirect : direct? tables a.name with
  | some p =>
    obtain ⟨t, c⟩ := p
    constructor
    · exact fun h => .inl ⟨t, c, rfl, (Except.ok.inj h).symm⟩
    · rintro (⟨u, d, h, rfl⟩ | ⟨h, -⟩)
      · obtain ⟨rfl, rfl⟩ := Prod.mk.inj (Option.some.inj h)
        rfl
      · exact nomatch h
  | none =>
    cases hcomposite : a.isComposite with
    | false => simp
    | true =>
      simp only [if_true, List.isEmpty_iff]
      by_cases hitems : flattenedItems tables a.name = []
      · rw [if_pos hitems]
        constructor
        · exact fun h => nomatch h
        · rintro (⟨t, c, h, -⟩ | ⟨-, -, rfl, h⟩)
          · exact nomatch h
          · exact absurd hitems h
      · rw [if_neg hitems, Except.ok.injEq]
        constructor
        · rintro rfl
          exact .inr ⟨trivial, trivial, rfl, hitems⟩
        · rintro (⟨t, c, h, -⟩ | ⟨-, -, h, -⟩)
          · exact nomatch h
          · exact h.symm

theorem mem_flattenedItems {name : String} {item : SelectItem} :
    item ∈ flattenedItems tables name ↔ ∃ t ∈ tables, ∃ c ∈ t.columns,
      c.flattenedFrom = some name ∧ item = ⟨columnOf t c, some c.name⟩ := by
  simp only [flattenedItems, List.mem_flatMap, List.mem_map, List.mem_filter,
    decide_eq_true_eq, and_assoc, @eq_comm _ item]

/-- The items show an attribute under a name: there are some, and each reads a column that has
the name or, if the attribute is composite, was split out of an attribute of the name. -/
def Shows (tables : List Table) (a : Attribute) (name : String) (items : List SelectItem) : Prop :=
  items ≠ [] ∧ ∀ item ∈ items, ∃ t c, Reads tables item t c ∧
    (c.name = name ∨ a.isComposite = true ∧ c.flattenedFrom = some name)

/-- **The items for an attribute show it** under its name. -/
theorem shows_itemsFor {a : Attribute} {items : List SelectItem}
    (h : itemsFor node tables a = .ok items) : Shows tables a a.name items := by
  rcases itemsFor_eq_ok.mp h with ⟨t, c, hdirect, rfl⟩ | ⟨-, hcomposite, rfl, hne⟩
  · obtain ⟨ht, hc, hname⟩ := direct?_eq_some hdirect
    refine ⟨List.cons_ne_nil _ _, fun item hitem => ?_⟩
    obtain rfl := List.mem_singleton.mp hitem
    exact ⟨t, c, ⟨ht, hc, references_directItem _ _ _⟩, .inl hname⟩
  · refine ⟨hne, fun item hitem => ?_⟩
    obtain ⟨t, ht, c, hc, hflat, rfl⟩ := mem_flattenedItems.mp hitem
    exact ⟨t, c, ⟨ht, hc, by simp [columnOf, Expr.references]⟩, .inr ⟨hcomposite, hflat⟩⟩

/-- **An attribute has items** if a column has its name or was split out of it. -/
theorem exists_itemsFor {a : Attribute} {t : Table} {c : Column} (ht : t ∈ tables)
    (hc : c ∈ t.columns)
    (h : c.name = a.name ∨ a.isComposite = true ∧ c.flattenedFrom = some a.name) :
    ∃ items, itemsFor node tables a = .ok items := by
  rcases h with hname | ⟨hcomposite, hflat⟩
  · obtain ⟨u, d, hdirect⟩ := exists_direct? ht hc hname
    exact ⟨_, itemsFor_eq_ok.mpr (.inl ⟨u, d, hdirect, rfl⟩)⟩
  · cases hdirect : direct? tables a.name with
    | some p => exact ⟨_, itemsFor_eq_ok.mpr (.inl ⟨p.1, p.2, hdirect, rfl⟩)⟩
    | none =>
      refine ⟨_, itemsFor_eq_ok.mpr (.inr ⟨hdirect, hcomposite, rfl, ?_⟩)⟩
      exact List.ne_nil_of_mem (mem_flattenedItems.mpr ⟨t, ht, c, hc, hflat, rfl⟩)

theorem eq_noColumn_of_itemsFor {a : Attribute} {e : ReconstructionError}
    (h : itemsFor node tables a = .error e) : e = .noColumn node a.name := by
  unfold itemsFor at h
  split at h
  · exact nomatch h
  · dsimp only at h
    generalize (if a.isComposite then flattenedItems tables a.name else []) = items at h
    split at h
    · exact (Except.error.inj h).symm
    · exact nomatch h

/-- A column provides an attribute if it has its name or, where the attribute is composite, was
split out of it. -/
def Provides (tables : List Table) (a : Attribute) : Prop :=
  ∃ t ∈ tables, ∃ c ∈ t.columns,
    c.name = a.name ∨ a.isComposite = true ∧ c.flattenedFrom = some a.name

/-- An attribute has items exactly if a column provides it. -/
theorem exists_itemsFor_iff (node : String) {a : Attribute} :
    (∃ items, itemsFor node tables a = .ok items) ↔ Provides tables a := by
  constructor
  · rintro ⟨items, hitems⟩
    obtain ⟨hne, hall⟩ := shows_itemsFor hitems
    obtain ⟨item, hitem⟩ := List.exists_mem_of_ne_nil items hne
    obtain ⟨t, c, ⟨ht, hc, -⟩, hprovides⟩ := hall item hitem
    exact ⟨t, ht, c, hc, hprovides⟩
  · rintro ⟨t, ht, c, hc, hprovides⟩
    exact exists_itemsFor ht hc hprovides

theorem itemsFor_eq_error {a : Attribute} {e : ReconstructionError} :
    itemsFor node tables a = .error e ↔ ¬Provides tables a ∧ e = .noColumn node a.name := by
  rw [← exists_itemsFor_iff node]
  cases hitems : itemsFor node tables a with
  | ok items => simp
  | error e' =>
    obtain rfl := eq_noColumn_of_itemsFor hitems
    simp [eq_comm]

/-- **Items are missing for want of a column only**; the first attribute without one is blamed. -/
theorem itemsForAll_eq_error {e : ReconstructionError} : ∀ {as : List Attribute},
    itemsForAll node tables as = .error e ↔ ∃ before a after, as = before ++ a :: after ∧
      (∀ b ∈ before, Provides tables b) ∧ ¬Provides tables a ∧ e = .noColumn node a.name
  | [] => by simp [itemsForAll]
  | a :: as => by
    rw [itemsForAll, bind_eq_error]
    simp only [bind_pure_eq_error, itemsFor_eq_error, itemsForAll_eq_error]
    constructor
    · rintro (⟨hnot, rfl⟩ | ⟨items, hitems, before, b, after, rfl, hbefore, hnot, rfl⟩)
      · exact ⟨[], a, as, rfl, fun b hb => absurd hb List.not_mem_nil, hnot, rfl⟩
      · refine ⟨a :: before, b, after, rfl, List.forall_mem_cons.mpr ⟨?_, hbefore⟩, hnot, rfl⟩
        exact (exists_itemsFor_iff node).mp ⟨items, hitems⟩
    · rintro ⟨before, b, after, hsplit, hbefore, hnot, rfl⟩
      cases before with
      | nil =>
        obtain ⟨rfl, rfl⟩ := List.cons.inj hsplit
        exact .inl ⟨hnot, rfl⟩
      | cons a' before =>
        obtain ⟨rfl, rfl⟩ := List.cons.inj hsplit
        obtain ⟨ha, hbefore⟩ := List.forall_mem_cons.mp hbefore
        obtain ⟨items, hitems⟩ := (exists_itemsFor_iff node).mpr ha
        exact .inr ⟨items, hitems, before, b, after, rfl, hbefore, hnot, rfl⟩

/-! ## 2. Joins -/

/-- A join of a table with the first one on their keys. -/
def IsJoin (anchor : Table) (key : Column) (t : Table) (join : Join) : Prop :=
  ∃ c, t.joinKey? = some c ∧ join = ⟨t.name, .equal (columnOf anchor key) (columnOf t c)⟩

theorem joinKey_eq_ok {t : Table} {c : Column} :
    joinKey node t = .ok c ↔ t.joinKey? = some c := by
  unfold joinKey
  split
  · next h => simp [h]
  · next h => simp [h]

theorem mem_of_joinKey? {t : Table} {c : Column} (h : t.joinKey? = some c) :
    c ∈ t.columns ∧ c.form.isKey = true := by
  obtain ⟨hhead, hkey⟩ := Option.filter_eq_some_iff.mp h
  exact ⟨List.mem_of_head? hhead, hkey⟩

theorem joinsWith_eq_ok {anchor : Table} {key : Column} : ∀ {ts : List Table} {js : List Join},
    joinsWith node anchor key ts = .ok js ↔ List.Forall₂ (IsJoin anchor key) ts js
  | [], js => by
    rw [joinsWith, Except.ok.injEq, List.forall₂_nil_left_iff, eq_comm]
  | t :: ts, js => by
    simp only [joinsWith, bind_eq_ok, pure_eq_ok, joinKey_eq_ok, joinsWith_eq_ok,
      List.forall₂_cons_left_iff]
    constructor
    · rintro ⟨c, hc, rest, hrest, rfl⟩
      exact ⟨_, rest, ⟨c, hc, rfl⟩, hrest, rfl⟩
    · rintro ⟨_, rest, ⟨c, hc, rfl⟩, hrest, rfl⟩
      exact ⟨c, hc, rest, hrest, rfl⟩

/-- **Every further table is joined with the first on their keys.** -/
theorem joins_eq_ok {anchor : Table} {ts : List Table} {js : List Join} :
    joins node anchor ts = .ok js ↔ ts = [] ∧ js = [] ∨
      ts ≠ [] ∧ ∃ key, anchor.joinKey? = some key ∧ List.Forall₂ (IsJoin anchor key) ts js := by
  cases ts with
  | nil => simp [joins, eq_comm]
  | cons t ts =>
    simp only [joins, bind_eq_ok, joinKey_eq_ok, joinsWith_eq_ok, reduceCtorEq, false_and,
      false_or, ne_eq, not_false_eq_true, true_and]

/-- A table without a key cannot be joined. -/
theorem joinKey_eq_error {t : Table} {e : ReconstructionError} :
    joinKey node t = .error e ↔ t.joinKey?.isNone = true ∧ e = .noJoinKey node t.name := by
  unfold joinKey
  split
  · next h => simp [h]
  · next h => simp [h, eq_comm]

theorem joinsWith_eq_error {anchor : Table} {key : Column} {e : ReconstructionError} :
    ∀ {ts : List Table}, joinsWith node anchor key ts = .error e ↔
      ∃ t, ts.find? (·.joinKey?.isNone) = some t ∧ e = .noJoinKey node t.name
  | [] => by simp [joinsWith]
  | t :: ts => by
    rw [joinsWith, bind_eq_error]
    simp only [bind_pure_eq_error, joinKey_eq_ok, joinKey_eq_error, joinsWith_eq_error]
    cases hkey : t.joinKey? with
    | none => simp [hkey]
    | some c => simp [hkey]

/-- **The first table without a key is why tables are not joined.** -/
theorem joins_eq_error {anchor : Table} {ts : List Table} {e : ReconstructionError} :
    joins node anchor ts = .error e ↔ ts ≠ [] ∧
      ∃ t, (anchor :: ts).find? (·.joinKey?.isNone) = some t ∧ e = .noJoinKey node t.name := by
  cases ts with
  | nil => simp [joins]
  | cons t ts =>
    simp only [joins, bind_eq_error, joinKey_eq_ok, joinKey_eq_error, joinsWith_eq_error]
    cases hkey : anchor.joinKey? with
    | none => simp [hkey]
    | some c => simp [hkey]

/-- **Tables that have keys can be joined.** -/
theorem exists_joins {anchor : Table} {ts : List Table}
    (h : ∀ t ∈ anchor :: ts, ∃ key, t.joinKey? = some key) :
    ∃ js, joins node anchor ts = .ok js := by
  obtain ⟨key, hkey⟩ := h anchor List.mem_cons_self
  cases ts with
  | nil => exact ⟨[], rfl⟩
  | cons t ts =>
    obtain ⟨js, hjs⟩ : ∃ js, List.Forall₂ (IsJoin anchor key) (t :: ts) js := by
      refine exists_forall₂ fun u hu => ?_
      obtain ⟨c, hc⟩ := h u (List.mem_cons_of_mem _ hu)
      exact ⟨_, c, hc, rfl⟩
    exact ⟨js, joins_eq_ok.mpr (.inr ⟨List.cons_ne_nil _ _, key, hkey, hjs⟩)⟩

theorem map_table_joins {anchor : Table} {ts : List Table} {js : List Join}
    (h : joins node anchor ts = .ok js) : js.map Join.table = ts.map Table.name := by
  rcases joins_eq_ok.mp h with ⟨rfl, rfl⟩ | ⟨-, key, -, hall⟩
  · rfl
  · rw [← List.forall₂_eq_eq_eq, List.forall₂_map_left_iff, List.forall₂_map_right_iff]
    refine hall.flip.imp fun j t hj => ?_
    obtain ⟨c, -, rfl⟩ := hj
    rfl

/-! ## 3. Queries -/

/-- What is grouped by is selected. -/
theorem exists_of_mem_groupBy {items : List SelectItem} :
    ∀ e ∈ groupBy items, ∃ item ∈ items, item.expr = e := by
  intro e he
  unfold groupBy at he
  split at he
  · obtain ⟨item, hitem, rfl⟩ := List.mem_map.mp he
    exact ⟨item, (List.mem_filter.mp hitem).1, rfl⟩
  · exact absurd he List.not_mem_nil

/-- **When there is a query, and what it is.** -/
theorem query_eq_ok {as : List Attribute} {q : Query} :
    query node as tables = .ok q ↔ ∃ anchor others js parts, tables = anchor :: others ∧
      joins node anchor others = .ok js ∧
        List.Forall₂ (fun a is => itemsFor node tables a = .ok is) as parts ∧
          q = ⟨parts.flatten, some anchor.name, js, groupBy parts.flatten⟩ := by
  cases tables with
  | nil => simp [query]
  | cons anchor others =>
    simp only [query, bind_eq_ok, pure_eq_ok, itemsForAll_eq_ok]
    constructor
    · rintro ⟨js, hjs, _, ⟨parts, hparts, rfl⟩, rfl⟩
      exact ⟨anchor, others, js, parts, rfl, hjs, hparts, rfl⟩
    · rintro ⟨_, _, js, parts, h, hjs, hparts, rfl⟩
      obtain ⟨rfl, rfl⟩ := List.cons.inj h
      exact ⟨js, hjs, _, ⟨parts, hparts, rfl⟩, rfl⟩

theorem one_lt_length_cons {a : Table} {as : List Table} : 1 < (a :: as).length ↔ as ≠ [] := by
  rw [List.length_cons, ← List.length_pos_iff]
  omega

/-- **A query fails for want of a key exactly if there are several tables and one has none**; the
first such is blamed. -/
theorem query_eq_noJoinKey {as : List Attribute} {n name : String} :
    query node as tables = .error (.noJoinKey n name) ↔ 1 < tables.length ∧ n = node ∧
      ∃ t, tables.find? (·.joinKey?.isNone) = some t ∧ t.name = name := by
  cases tables with
  | nil => simp [query]
  | cons anchor others =>
    have hitems : itemsForAll node (anchor :: others) as ≠ .error (.noJoinKey n name) := fun h =>
      let ⟨_, _, _, _, _, _, h⟩ := itemsForAll_eq_error.mp h
      nomatch h
    rw [query, bind_eq_error]
    simp only [bind_pure_eq_error, hitems, and_false, exists_false, or_false, joins_eq_error]
    rw [one_lt_length_cons]
    refine and_congr_right fun _ => ?_
    constructor
    · rintro ⟨t, ht, herror⟩
      obtain ⟨rfl, rfl⟩ := ReconstructionError.noJoinKey.inj herror
      exact ⟨rfl, t, ht, rfl⟩
    · rintro ⟨rfl, t, ht, rfl⟩
      exact ⟨t, ht, rfl⟩

/-- Tables can be put into one query: there is one, or there are several and all have keys. -/
def IsJoinable (tables : List Table) : Prop :=
  tables ≠ [] ∧ (1 < tables.length → ∀ t ∈ tables, t.joinKey?.isSome = true)

theorem exists_joins_iff (node : String) {anchor : Table} {others : List Table} :
    (∃ js, joins node anchor others = .ok js) ↔ IsJoinable (anchor :: others) := by
  constructor
  · rintro ⟨js, hjs⟩
    refine ⟨List.cons_ne_nil _ _, fun hseveral => ?_⟩
    rcases joins_eq_ok.mp hjs with ⟨hnil, -⟩ | ⟨-, key, hkey, hall⟩
    · exact absurd hnil (one_lt_length_cons.mp hseveral)
    · refine List.forall_mem_cons.mpr ⟨Option.isSome_iff_exists.mpr ⟨key, hkey⟩, fun t ht => ?_⟩
      obtain ⟨j, -, c, hc, -⟩ := exists_of_mem_left hall ht
      exact Option.isSome_iff_exists.mpr ⟨c, hc⟩
  · rintro ⟨-, hkeys⟩
    cases others with
    | nil => exact ⟨[], rfl⟩
    | cons t ts =>
      have hall := hkeys (one_lt_length_cons.mpr (List.cons_ne_nil _ _))
      exact exists_joins fun u hu => Option.isSome_iff_exists.mp (hall u hu)

/-- **Why there is no query**: there is no table, or one that cannot be joined, or an attribute
without a column. -/
theorem query_eq_error {as : List Attribute} {e : ReconstructionError} :
    query node as tables = .error e ↔ tables = [] ∧ e = .noTables node ∨
      (1 < tables.length ∧ ∃ t, tables.find? (·.joinKey?.isNone) = some t ∧
        e = .noJoinKey node t.name) ∨
      IsJoinable tables ∧ ∃ before a after, as = before ++ a :: after ∧
        (∀ b ∈ before, Provides tables b) ∧ ¬Provides tables a ∧ e = .noColumn node a.name := by
  cases tables with
  | nil => simp [query, IsJoinable, @eq_comm _ e]
  | cons anchor others =>
    rw [query, bind_eq_error, joins_eq_error, ← one_lt_length_cons (a := anchor),
      ← exists_joins_iff node]
    simp only [bind_pure_eq_error, itemsForAll_eq_error, List.cons_ne_nil, false_and, false_or,
      exists_and_right]

section

variable {as : List Attribute} {q : Query} (h : query node as tables = .ok q)

include h

theorem tables_query : q.tables = tables.map Table.name := by
  obtain ⟨anchor, others, js, parts, rfl, hjs, -, rfl⟩ := query_eq_ok.mp h
  rw [Query.tables, map_table_joins hjs]
  rfl

/-- Every item of a query reads a column of one of its tables. -/
theorem reads_query : ∀ item ∈ q.select, ∃ t c, Reads tables item t c := by
  obtain ⟨anchor, others, js, parts, rfl, -, hparts, rfl⟩ := query_eq_ok.mp h
  intro item hitem
  obtain ⟨is, his, hitem⟩ := List.mem_flatten.mp hitem
  obtain ⟨a, -, ha⟩ := exists_of_mem_right hparts his
  obtain ⟨t, c, hreads, -⟩ := (shows_itemsFor ha).2 item hitem
  exact ⟨t, c, hreads⟩

/-- **A query refers to columns of its tables only.** -/
theorem references_query : ∀ ref ∈ q.references, ∃ t ∈ tables, ∃ c ∈ t.columns,
    ref = (some t.name, c.name) := by
  have hitems : ∀ item ∈ q.select, ∀ ref ∈ item.expr.references, ∃ t ∈ tables, ∃ c ∈ t.columns,
      ref = (some t.name, c.name) := by
    intro item hitem ref href
    obtain ⟨t, c, ht, hc, hrefs⟩ := reads_query h item hitem
    exact ⟨t, ht, c, hc, List.mem_singleton.mp (hrefs ▸ href)⟩
  obtain ⟨anchor, others, js, parts, rfl, hjs, -, rfl⟩ := query_eq_ok.mp h
  intro ref href
  simp only [Query.references, List.mem_append, List.mem_flatMap] at href
  rcases href with (⟨item, hitem, href⟩ | ⟨j, hj, href⟩) | ⟨e, he, href⟩
  · exact hitems item hitem ref href
  · rcases joins_eq_ok.mp hjs with ⟨-, rfl⟩ | ⟨-, key, hkey, hall⟩
    · exact absurd hj List.not_mem_nil
    · obtain ⟨t, ht, c, hc, rfl⟩ := exists_of_mem_right hall hj
      simp only [columnOf, Expr.references, List.cons_append, List.nil_append, List.mem_cons,
        List.not_mem_nil, or_false] at href
      rcases href with rfl | rfl
      · exact ⟨anchor, List.mem_cons_self, key, (mem_of_joinKey? hkey).1, rfl⟩
      · exact ⟨t, List.mem_cons_of_mem _ ht, c, (mem_of_joinKey? hc).1, rfl⟩
  · obtain ⟨item, hitem, rfl⟩ := exists_of_mem_groupBy e he
    exact hitems item hitem ref href

end

end EntityLayout.Reconstruction

/-
# The answer to a structure and some tables

What is asked for is a query for a list of attributes over a list of tables, whatever these are.
The answer depends on which columns the tables have and in what order, and on nothing else.  Here it
is said of the columns themselves: an attribute is the column that stands first under its name, and
a table is joined by the column that stands first in it.

* `Table.LeadsWith`, `Reconstruction.IsFirstNamed`: these columns.
* `Reconstruction.StandFor`, `Reconstruction.Lacks`: the items for an attribute, or that there are
  none.
* `Reconstruction.IsAnswer`: **a query, or one of three refusals**, each under its own conditions.
* `Reconstruction.query_eq_iff`: the answer is the one that is given.
-/
import EntityLayout.Proofs.Sql.Queries

namespace EntityLayout

open Sql (Expr SelectItem Join Query)

/-- A table leads with a key: its first column is one. -/
def Table.LeadsWith (t : Table) (key : Column) : Prop :=
  ∃ entity rest, t.columns = key :: rest ∧ key.form = .key entity

theorem ColumnForm.isKey_iff {form : ColumnForm} :
    form.isKey = true ↔ ∃ entity, form = .key entity := by
  cases form <;> simp [isKey]

theorem Table.joinKey?_eq_some_iff {t : Table} {key : Column} :
    t.joinKey? = some key ↔ t.LeadsWith key := by
  rw [joinKey?, Option.filter_eq_some_iff, ColumnForm.isKey_iff, List.head?_eq_some_iff]
  constructor
  · rintro ⟨⟨rest, hcolumns⟩, entity, hform⟩
    exact ⟨entity, rest, hcolumns, hform⟩
  · rintro ⟨entity, rest, hcolumns, hform⟩
    exact ⟨⟨rest, hcolumns⟩, entity, hform⟩

theorem Table.joinKey?_isSome_iff {t : Table} :
    t.joinKey?.isSome = true ↔ ∃ key, t.LeadsWith key := by
  rw [Option.isSome_iff_exists]
  exact exists_congr fun _ => joinKey?_eq_some_iff

theorem Table.joinKey?_isNone_iff {t : Table} :
    t.joinKey?.isNone = true ↔ ∀ key, ¬t.LeadsWith key := by
  rw [← Option.not_isSome, Bool.not_eq_true', ← Bool.not_eq_true, joinKey?_isSome_iff, not_exists]

namespace Reconstruction

variable {node name : String} {tables : List Table} {as : List Attribute} {a : Attribute}
  {t : Table} {c : Column} {items : List SelectItem}

/-! ## 1. The items for an attribute -/

/-- The first column of a name in the first of the tables that has any. -/
structure IsFirstNamed (tables : List Table) (name : String) (t : Table) (c : Column) : Prop where
  named : c.name = name
  first : ∃ front back, t.columns = front ++ c :: back ∧ ∀ x ∈ front, x.name ≠ name
  firstTable : ∃ before after, tables = before ++ t :: after ∧
    ∀ u ∈ before, ∀ x ∈ u.columns, x.name ≠ name

/-- The items that stand for an attribute. -/
inductive StandFor (tables : List Table) (a : Attribute) : List SelectItem → Prop where
  /-- all values of a column of its name that has one value to a row -/
  | collected {t : Table} {c : Column} : IsFirstNamed tables a.name t c → c.form = .normalized →
      StandFor tables a [⟨.call "ARRAY_AGG" [.column (some t.name) c.name], some a.name⟩]
  /-- any other column of its name -/
  | column {t : Table} {c : Column} : IsFirstNamed tables a.name t c → c.form ≠ .normalized →
      StandFor tables a [⟨.column (some t.name) c.name, some a.name⟩]
  /-- or else, of a composite attribute, the columns that were split out of it, in order -/
  | parts {items : List SelectItem} : (∀ t ∈ tables, ∀ c ∈ t.columns, c.name ≠ a.name) →
      a.type = .composite →
        items = (tables.flatMap fun t =>
          (t.columns.filter fun c => c.flattenedFrom = some a.name).map fun c =>
            ⟨.column (some t.name) c.name, some c.name⟩) →
          items ≠ [] → StandFor tables a items

/-- Nothing stands for an attribute: no column has its name and, should it be composite, none was
split out of it. -/
def Lacks (tables : List Table) (a : Attribute) : Prop := ∀ t ∈ tables, ∀ c ∈ t.columns,
  c.name ≠ a.name ∧ (a.type = .composite → c.flattenedFrom ≠ some a.name)

theorem column?_eq_some_iff : t.column? name = some c ↔ c.name = name ∧
    ∃ front back, t.columns = front ++ c :: back ∧ ∀ x ∈ front, x.name ≠ name := by
  simp [Table.column?, List.find?_eq_some_iff_append]

theorem column?_eq_none_iff : t.column? name = none ↔ ∀ c ∈ t.columns, c.name ≠ name := by
  simp [Table.column?]

/-- **The column that is looked up is the first of its name.** -/
theorem direct?_eq_some_iff : direct? tables name = some (t, c) ↔ IsFirstNamed tables name t c := by
  rw [direct?, List.findSome?_eq_some_iff]
  constructor
  · rintro ⟨before, u, after, rfl, hu, hbefore⟩
    obtain ⟨x, hx, hpair⟩ := Option.map_eq_some_iff.mp hu
    obtain ⟨rfl, rfl⟩ := Prod.mk.inj hpair
    obtain ⟨hnamed, hfirst⟩ := column?_eq_some_iff.mp hx
    refine ⟨hnamed, hfirst, before, after, rfl, fun v hv => ?_⟩
    exact column?_eq_none_iff.mp (Option.map_eq_none_iff.mp (hbefore v hv))
  · rintro ⟨hnamed, hfirst, before, after, rfl, hbefore⟩
    refine ⟨before, t, after, rfl, ?_, fun v hv => ?_⟩
    · rw [column?_eq_some_iff.mpr ⟨hnamed, hfirst⟩]
      rfl
    · rw [column?_eq_none_iff.mpr (hbefore v hv)]
      rfl

theorem isComposite_iff : a.isComposite = true ↔ a.type = .composite := by
  rw [Attribute.isComposite, AttributeType.isComposite, decide_eq_true_eq]

/-- **The items that are selected for an attribute stand for it.** -/
theorem itemsFor_eq_ok_iff : itemsFor node tables a = .ok items ↔ StandFor tables a items := by
  rw [itemsFor_eq_ok, isComposite_iff]
  constructor
  · rintro (⟨t, c, hdirect, rfl⟩ | ⟨hnone, hcomposite, rfl, hne⟩)
    · have hfirst := direct?_eq_some_iff.mp hdirect
      unfold directItem
      dsimp only
      by_cases hform : c.form = .normalized
      · rw [if_pos hform]
        exact .collected hfirst hform
      · rw [if_neg hform]
        exact .column hfirst hform
    · exact .parts (direct?_eq_none.mp hnone) hcomposite rfl hne
  · intro hstand
    cases hstand with
    | @collected t c hfirst hform =>
      refine .inl ⟨t, c, direct?_eq_some_iff.mpr hfirst, ?_⟩
      rw [directItem, if_pos hform]
      rfl
    | @column t c hfirst hform =>
      refine .inl ⟨t, c, direct?_eq_some_iff.mpr hfirst, ?_⟩
      rw [directItem, if_neg hform]
      rfl
    | parts hnone hcomposite hitems hne =>
      exact .inr ⟨direct?_eq_none.mpr hnone, hcomposite, hitems, hne⟩

theorem not_provides_iff : ¬Provides tables a ↔ Lacks tables a := by
  rw [Provides, isComposite_iff, Lacks]
  push Not
  exact Iff.rfl

/-! ## 2. Groups -/

/-- The column that an item shows as it stands; nothing if it collects the values of one. -/
def shown? (item : SelectItem) : Option Expr :=
  match item.expr with
  | .column table name => some (.column table name)
  | _ => none

/-- What has to be grouped by: nothing if all items show a column as it stands, and all columns
that are so shown if one does not. -/
inductive GroupBy (items : List SelectItem) : List Expr → Prop where
  | nothing : (∀ item ∈ items, (shown? item).isSome = true) → GroupBy items []
  | shown {item : SelectItem} :
      item ∈ items → shown? item = none → GroupBy items (items.filterMap shown?)

/-- Items that reconstruct an attribute show a column as it stands or collect its values. -/
theorem shown?_eq {item : SelectItem} (h : item.IsPlain) :
    shown? item = if item.expr.isAggregate then none else some item.expr := by
  obtain ⟨e, label, ⟨t, n, rfl⟩ | ⟨e, -, rfl⟩, rfl⟩ := h
  · rfl
  · rw [if_pos (isAggregate_arrayAgg e)]
    rfl

theorem shown?_eq_none {item : SelectItem} (h : item.IsPlain) :
    shown? item = none ↔ item.expr.isAggregate = true := by
  rw [shown?_eq h]
  split
  · next hcollected => simp [hcollected]
  · next hplain => simp [hplain]

theorem filterMap_shown? (h : ∀ item ∈ items, item.IsPlain) :
    items.filterMap shown? =
      (items.filter fun i => !i.expr.isAggregate).map SelectItem.expr := by
  rw [← List.filterMap_eq_map, List.filterMap_filter]
  refine List.filterMap_congr fun item hitem => ?_
  rw [shown?_eq (h item hitem)]
  cases item.expr.isAggregate <;> rfl

/-- **What is grouped by** is what has to be. -/
theorem eq_groupBy_iff (h : ∀ item ∈ items, item.IsPlain) {es : List Expr} :
    es = groupBy items ↔ GroupBy items es := by
  rw [groupBy, ← filterMap_shown? h]
  by_cases hany : ∃ item ∈ items, item.expr.isAggregate = true
  · obtain ⟨item, hitem, hcollected⟩ := hany
    have hitemNone := (shown?_eq_none (h item hitem)).mpr hcollected
    rw [if_pos (List.any_eq_true.mpr ⟨item, hitem, hcollected⟩)]
    constructor
    · rintro rfl
      exact .shown hitem hitemNone
    · intro hgroup
      cases hgroup with
      | nothing hall =>
        have hsome := hall item hitem
        rw [hitemNone] at hsome
        exact nomatch hsome
      | shown => rfl
  · rw [if_neg fun hcollected => hany (List.any_eq_true.mp hcollected)]
    constructor
    · rintro rfl
      refine .nothing fun item hitem => ?_
      rw [Option.isSome_iff_ne_none, ne_eq, shown?_eq_none (h item hitem)]
      exact fun hcollected => hany ⟨item, hitem, hcollected⟩
    · intro hgroup
      cases hgroup with
      | nothing => rfl
      | @shown item hitem hitemNone =>
        exact absurd ⟨item, hitem, (shown?_eq_none (h item hitem)).mp hitemNone⟩ hany

/-! ## 3. Answers -/

/-- A table is joined with the first one on the keys that they lead with. -/
def JoinsOnKey (anchor t : Table) (join : Join) : Prop :=
  ∃ key own, anchor.LeadsWith key ∧ t.LeadsWith own ∧
    join = ⟨t.name, .equal (.column (some anchor.name) key.name) (.column (some t.name) own.name)⟩

theorem joins_eq_ok_iff {anchor : Table} {others : List Table} {joins : List Join} :
    Reconstruction.joins node anchor others = .ok joins ↔
      List.Forall₂ (JoinsOnKey anchor) others joins := by
  rw [joins_eq_ok]
  constructor
  · rintro (⟨rfl, rfl⟩ | ⟨-, key, hkey, hall⟩)
    · exact .nil
    · refine hall.imp fun t join hjoin => ?_
      obtain ⟨own, hown, rfl⟩ := hjoin
      exact ⟨key, own, Table.joinKey?_eq_some_iff.mp hkey, Table.joinKey?_eq_some_iff.mp hown, rfl⟩
  · intro hall
    cases hall with
    | nil => exact .inl ⟨rfl, rfl⟩
    | @cons t join others joins hjoin hrest =>
      obtain ⟨key, own, hkey, -, -⟩ := id hjoin
      have hkey := Table.joinKey?_eq_some_iff.mpr hkey
      refine .inr ⟨List.cons_ne_nil _ _, key, hkey, (List.Forall₂.cons hjoin hrest).imp ?_⟩
      rintro t join ⟨key', own, hkey', hown, rfl⟩
      -- the first table leads with one column only
      obtain rfl := Option.some.inj (hkey.symm.trans (Table.joinKey?_eq_some_iff.mpr hkey'))
      exact ⟨own, Table.joinKey?_eq_some_iff.mpr hown, rfl⟩

/-- **The answer to a structure and some tables.** -/
inductive IsAnswer (node : String) (as : List Attribute) (tables : List Table) :
    Except ReconstructionError Query → Prop where
  /-- there is no table -/
  | noTables : tables = [] → IsAnswer node as tables (.error (.noTables node))
  /-- there are several tables, and this is the first that does not lead with a key -/
  | noJoinKey {before after : List Table} {t : Table} : tables = before ++ t :: after →
      2 ≤ tables.length → (∀ u ∈ before, ∃ key, u.LeadsWith key) → (∀ key, ¬t.LeadsWith key) →
        IsAnswer node as tables (.error (.noJoinKey node t.name))
  /-- the tables can be joined, and this is the first attribute that nothing stands for -/
  | noColumn {before after : List Attribute} {a : Attribute} : tables ≠ [] →
      (2 ≤ tables.length → ∀ t ∈ tables, ∃ key, t.LeadsWith key) → as = before ++ a :: after →
        (∀ b ∈ before, ¬Lacks tables b) → Lacks tables a →
          IsAnswer node as tables (.error (.noColumn node a.name))
  /-- the tables can be joined, and there are items for every attribute -/
  | query {anchor : Table} {others : List Table} {joins : List Join}
      {parts : List (List SelectItem)} {groups : List Expr} : tables = anchor :: others →
        List.Forall₂ (JoinsOnKey anchor) others joins → List.Forall₂ (StandFor tables) as parts →
          GroupBy parts.flatten groups →
            IsAnswer node as tables (.ok ⟨parts.flatten, some anchor.name, joins, groups⟩)

theorem isJoinable_iff : IsJoinable tables ↔
    tables ≠ [] ∧ (2 ≤ tables.length → ∀ t ∈ tables, ∃ key, t.LeadsWith key) := by
  simp only [IsJoinable, Table.joinKey?_isSome_iff]
  exact Iff.rfl

theorem find?_joinKey?_eq_some_iff :
    tables.find? (·.joinKey?.isNone) = some t ↔ ∃ before after, tables = before ++ t :: after ∧
      (∀ u ∈ before, ∃ key, u.LeadsWith key) ∧ ∀ key, ¬t.LeadsWith key := by
  rw [List.find?_eq_some_iff_append, Table.joinKey?_isNone_iff]
  have hkeyed : ∀ u : Table, (!u.joinKey?.isNone) = true ↔ ∃ key, u.LeadsWith key := fun u => by
    rw [Option.not_isNone, Table.joinKey?_isSome_iff]
  simp only [hkeyed]
  constructor
  · rintro ⟨hnot, before, after, hsplit, hbefore⟩
    exact ⟨before, after, hsplit, hbefore, hnot⟩
  · rintro ⟨before, after, hsplit, hbefore, hnot⟩
    exact ⟨hnot, before, after, hsplit, hbefore⟩

/-- The items for all attributes are as simple as those for each. -/
theorem isPlain_flatten {parts : List (List SelectItem)}
    (h : List.Forall₂ (fun a items => itemsFor node tables a = .ok items) as parts) :
    ∀ item ∈ parts.flatten, item.IsPlain := by
  intro item hitem
  obtain ⟨items, hitems, hitem⟩ := List.mem_flatten.mp hitem
  obtain ⟨a, -, ha⟩ := exists_of_mem_right h hitems
  exact isPlain_itemsFor ha item hitem

theorem query_eq_ok_iff {q : Query} :
    query node as tables = .ok q ↔ IsAnswer node as tables (.ok q) := by
  have hstand : ∀ parts, List.Forall₂ (fun a items => itemsFor node tables a = .ok items) as parts ↔
      List.Forall₂ (StandFor tables) as parts := fun parts => by simp only [itemsFor_eq_ok_iff]
  rw [query_eq_ok]
  constructor
  · rintro ⟨anchor, others, joins, parts, htables, hjoins, hparts, rfl⟩
    exact .query htables (joins_eq_ok_iff.mp hjoins) ((hstand parts).mp hparts)
      ((eq_groupBy_iff (isPlain_flatten hparts)).mp rfl)
  · intro hanswer
    cases hanswer with
    | @query anchor others joins parts groups htables hjoins hparts hgroups =>
      have hparts := (hstand parts).mpr hparts
      obtain rfl := (eq_groupBy_iff (isPlain_flatten hparts)).mpr hgroups
      exact ⟨anchor, others, joins, parts, htables, joins_eq_ok_iff.mpr hjoins, hparts, rfl⟩

theorem query_eq_error_iff {e : ReconstructionError} :
    query node as tables = .error e ↔ IsAnswer node as tables (.error e) := by
  simp only [query_eq_error, find?_joinKey?_eq_some_iff, isJoinable_iff, not_provides_iff]
  have hprovides : ∀ b, Provides tables b ↔ ¬Lacks tables b := fun b => by
    rw [← not_provides_iff, not_not]
  simp only [hprovides]
  constructor
  · rintro (⟨hnil, rfl⟩ | ⟨hseveral, t, ⟨before, after, hsplit, hbefore, hnot⟩, rfl⟩ |
      ⟨⟨hne, hkeys⟩, before, a, after, hsplit, hbefore, hlacks, rfl⟩)
    · exact .noTables hnil
    · exact .noJoinKey hsplit hseveral hbefore hnot
    · exact .noColumn hne hkeys hsplit hbefore hlacks
  · intro hanswer
    cases hanswer with
    | noTables hnil => exact .inl ⟨hnil, rfl⟩
    | @noJoinKey before after t hsplit hseveral hbefore hnot =>
      exact .inr (.inl ⟨hseveral, t, ⟨before, after, hsplit, hbefore, hnot⟩, rfl⟩)
    | @noColumn before after a hne hkeys hsplit hbefore hlacks =>
      exact .inr (.inr ⟨⟨hne, hkeys⟩, before, a, after, hsplit, hbefore, hlacks, rfl⟩)

/-- **The answer is the one that is given**, whatever the node is called, whatever attributes are
asked for and whatever the tables hold. -/
theorem query_eq_iff (node : String) (as : List Attribute) (tables : List Table)
    (x : Except ReconstructionError Query) :
    query node as tables = x ↔ IsAnswer node as tables x := by
  cases x with
  | error e => exact query_eq_error_iff
  | ok q => exact query_eq_ok_iff

/-- A table that is alone needs no key, and of two columns of one name the first counts. -/
example : query "visit" [⟨"day", .integer, false, false, true, []⟩]
    [⟨"rel0", 0, [⟨"day", .integer, "", .normalized, none⟩, ⟨"day", .text, "", .value, none⟩]⟩] =
      .ok ⟨[⟨.call "ARRAY_AGG" [.column (some "rel0") "day"], some "day"⟩], some "rel0", [], []⟩ := by
  decide +kernel

end Reconstruction

end EntityLayout

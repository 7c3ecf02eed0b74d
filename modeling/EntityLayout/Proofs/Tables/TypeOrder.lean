/-
# Scripts define types before they use them

The composite types of a schema are listed in the order of their making, parts first, and the
tables come behind them.

* `IsWellFormed.isHereditary`: parts have longer paths, so no part has the type of the whole.
* `TypeRegister.Made.isInOrder`: types that were made one by one are in order.
* `definesBeforeUse_statements`: **the script of a schema defines every type before it is used.**
-/
import EntityLayout.Proofs.Diagram.Declared
import EntityLayout.Proofs.Sql.Scope
import EntityLayout.Proofs.Tables.Synthesis

namespace EntityLayout

open Sql (SqlType Statement ColumnDef typesDefined IsInOrder)

/-! ## 1. Types -/

/-- In the diagram of a schema the parts of attributes have longer paths. -/
theorem SchemaDecl.IsWellFormed.isHereditary {schema : SchemaDecl} (h : schema.IsWellFormed) :
    TypeRegister.IsHereditary schema.diagram fun a => .attr a ∈ schema.diagram.nodes := by
  intro a ha path hpath part hpart
  obtain ⟨above, parent, x, hx, hax⟩ := exists_declaresAt ha
  rw [hax] at hpath
  obtain ⟨y, hy, rfl, hlt⟩ := hx.exists_part h.isIndexed hpath hpart
  rw [hax]
  exact ⟨hlt, fun _ => (hx.part hy).mem_nodes⟩

/-- The statement that creates a composite type. -/
def CompositeType.statement (t : CompositeType) : Statement :=
  .createType t.name (t.fields.map fun f => ⟨f.name, f.type⟩)

/-- The statement that creates a table. -/
def Table.statement (t : Table) : Statement :=
  .createTable t.name (t.columns.map fun c => ⟨c.name, c.type⟩)

theorem PhysicalSchema.statements_eq (s : PhysicalSchema) :
    s.statements = s.types.values.map CompositeType.statement ++ s.tables.map Table.statement := rfl

namespace TypeRegister

variable {naming : Naming} {d : Diagram} {Q : AttributeNode → Prop} {types : TypeRegister}

/-- The field for a part is of a composite type if the part is composite. -/
theorem composite?_fieldType (part : AttributeNode) :
    (fieldType naming part).composite? =
      if part.isComposite then some (naming.typeName part.path) else none := by
  unfold fieldType
  split
  · rfl
  · cases part.type <;> rfl

/-- The types that are used in making a type are those of composite parts. -/
theorem exists_of_mem_usedTypes {made name : String} {parts : List AttributeNode}
    (h : name ∈ (CompositeType.statement ⟨made, parts.map (fieldOf naming)⟩).usedTypes) :
    ∃ part ∈ parts, part.isComposite = true ∧ naming.typeName part.path = name := by
  simp only [CompositeType.statement, Statement.usedTypes, List.map_map, List.mem_filterMap,
    List.mem_map, Function.comp_apply] at h
  obtain ⟨_, ⟨part, hpart, rfl⟩, hname⟩ := h
  have htype : (fieldType naming part).composite? = some name := hname
  rw [composite?_fieldType] at htype
  split at htype
  · next hcomposite => exact ⟨part, hpart, hcomposite, Option.some.inj htype⟩
  · exact nomatch htype

/-- The statements for types create them under their names, in order. -/
theorem Made.typesDefined (h : Made naming d Q types) :
    typesDefined (types.values.map CompositeType.statement) = types.names := by
  rw [Sql.typesDefined, Register.values, Register.names, List.map_map, List.filterMap_map,
    ← List.filterMap_eq_map]
  refine List.filterMap_congr fun e he => ?_
  obtain ⟨a, parts, -, -, rfl⟩ := h.exists_of_mem e he
  rfl

/-- **Types that were made one by one are in order.** -/
theorem Made.isInOrder (h : Made naming d Q types) :
    IsInOrder (types.values.map CompositeType.statement) := by
  induction h with
  | empty => exact Sql.isInOrder_nil
  | @insert types a parts h _ _ hnames hnew ih =>
    rw [Register.values, Register.entries_insert hnew, List.map_append, List.map_append]
    refine ih.append fun t ht name hname => ?_
    obtain rfl := List.mem_singleton.mp ht
    rw [h.typesDefined]
    obtain ⟨part, hpart, hcomposite, rfl⟩ := exists_of_mem_usedTypes hname
    exact hnames part hpart hcomposite

end TypeRegister

/-! ## 2. Tables -/

/-- The column of an attribute is of its composite type if the attribute is composite. -/
theorem Blueprint.composite?_columnType (b : Blueprint) (only : Bool) (a : AttributeNode) :
    (b.columnType only a).composite? =
      if a.isComposite then some (b.naming.typeName a.path) else none := by
  have hsingle : (SqlType.ofAttributeType a.type).composite? = none := by cases a.type <;> rfl
  unfold columnType
  split
  · rfl
  · split <;> exact hsingle

/-- The types that a table uses are those of composite attributes that its grouping stores. -/
theorem Blueprint.IsTable.exists_of_mem_usedTypes {b : Blueprint} {index : Nat} {g : Grouping}
    {t : Table} (h : b.IsTable index g t) (hd : b.diagram.IsIndexed) {name : String}
    (hname : name ∈ t.statement.usedTypes) : ∃ a, g.Stores b.diagram b.naming a ∧
      a.isComposite = true ∧ b.naming.typeName a.path = name := by
  simp only [Table.statement, Statement.usedTypes, List.mem_filterMap, List.mem_map] at hname
  obtain ⟨_, ⟨column, hcolumn, rfl⟩, hname⟩ := hname
  have htype : column.type.composite? = some name := hname
  rcases h.column_cases hd hcolumn with ⟨stem, entity, rfl⟩ | ⟨a, only, ha, rfl⟩
  · exact nomatch htype
  · rw [show (b.columnOf only a).type = b.columnType only a from rfl,
      Blueprint.composite?_columnType] at htype
    split at htype
    · next hcomposite => exact ⟨a, ha, hcomposite, Option.some.inj htype⟩
    · exact nomatch htype

theorem typesDefined_tables (ts : List Table) : typesDefined (ts.map Table.statement) = [] := by
  rw [typesDefined, List.filterMap_map, List.filterMap_eq_nil_iff]
  exact fun _ _ => rfl

/-! ## 3. Scripts -/

/-- **The script of a schema defines every type before it is used**, whatever layout, groupings
and names the tables are made by. -/
theorem definesBeforeUse_statements {schema : SchemaDecl} {d : Diagram} {layout : Layout}
    {groupings : List Grouping} {naming : Naming} {s : PhysicalSchema}
    (hd : Diagram.ofDecl schema = .ok d) (h : synthesize d layout groupings naming = .ok s) :
    Sql.DefinesBeforeUse s.statements := by
  obtain ⟨hschema, rfl⟩ := Diagram.ofDecl_eq_ok.mp hd
  obtain ⟨hmade, hnames⟩ := synthesize_types h hschema.isIndexed hschema.isHereditary
    fun _ _ _ ha _ => ha.1
  rw [PhysicalSchema.statements_eq]
  refine ⟨?_, ?_, hmade.isInOrder.append fun t ht name hname => ?_⟩
  · rw [typesDefined, List.filterMap_append, ← typesDefined, ← typesDefined, hmade.typesDefined,
      typesDefined_tables, List.append_nil]
    exact s.types.nodup
  · rw [List.pairwise_append, List.pairwise_map, List.pairwise_map]
    refine ⟨List.pairwise_of_forall fun _ _ _ => rfl,
      List.pairwise_of_forall fun _ _ htable => absurd htable Bool.false_ne_true, ?_⟩
    rintro s hs t - -
    obtain ⟨type, -, rfl⟩ := List.mem_map.mp hs
    rfl
  · obtain ⟨table, htable, rfl⟩ := List.mem_map.mp ht
    obtain ⟨g, hg, hof⟩ := synthesize_of_mem h htable
    obtain ⟨a, ha, hcomposite, rfl⟩ := hof.exists_of_mem_usedTypes hschema.isIndexed hname
    rw [hmade.typesDefined]
    exact hnames g (List.mem_of_getElem? hg) a ha hcomposite

/-- Persons with a home, which has an address, and a home address. -/
def SchemaDecl.homes : SchemaDecl where
  entities := [⟨"Person", .regular, none, [⟨"person_id", .integer, true, false, false, []⟩,
    ⟨"home", .composite, false, false, false, [⟨"address", .composite, false, false, false,
      [⟨"city", .varchar, false, false, false, []⟩]⟩]⟩,
    ⟨"home_address", .composite, false, false, false,
      [⟨"street", .varchar, false, false, false, []⟩,
        ⟨"zip", .varchar, false, false, false, []⟩]⟩]⟩]
  relationships := []

/-- All of a person is stored together. -/
def Grouping.ofHomes : List (List String) := [["Person", "Person.home", "Person.home_address"]]

/-- Two attributes of persons have types of one name, which is defined once and before its
use. -/
theorem definesBeforeUse_homes : ∃ d s, Diagram.ofDecl .homes = .ok d ∧
    synthesize d .empty (Grouping.ofHomes.map .ofNames) .standard = .ok s ∧
      Sql.DefinesBeforeUse s.statements ∧
        typesDefined s.statements = ["person_home_address_type", "person_home_type"] := by
  have heval : (Diagram.ofDecl .homes).toOption.any (fun d =>
      (synthesize d .empty (Grouping.ofHomes.map .ofNames) .standard).toOption.any fun s =>
        decide (typesDefined s.statements = ["person_home_address_type", "person_home_type"])) =
          true := by
    decide +kernel
  obtain ⟨d, hd, heval⟩ := exists_of_any heval
  obtain ⟨s, hs, heval⟩ := exists_of_any heval
  exact ⟨d, s, hd, hs, definesBeforeUse_statements hd hs, of_decide_eq_true heval⟩

end EntityLayout

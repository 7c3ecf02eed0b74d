/-
# Whether columns and fields make room for several values

A multivalued attribute has a column of arrays, or one value in each row where it is the only
attribute of its grouping.  A composite attribute has a column of its composite type either way,
and a composite type has no fields of arrays.

* `Compilation.IsTypeOf`: a composite type is called after an attribute and has its parts.
* `Compilation.KeepsMultiplicity`: no column or field takes one value where there may be several.
* `Compilation.HasSingleComposites`: no composite attribute is multivalued, nor a part of one.
* `Compilation.keepsMultiplicity_iff`: **one holds exactly if the other does.**
* `Compilation.not_keepsMultiplicity_addresses`: persons with several addresses and phones, who have
  one.
-/
import EntityLayout.Proofs.Compilation.Coverage
import EntityLayout.Proofs.Compilation.Faithful

namespace EntityLayout

open Sql (SqlType)

/-! ## 1. Types of fields -/

namespace TypeRegister

variable {naming : Naming} {d : Diagram} {Q : AttributeNode → Prop} {types : TypeRegister}

theorem fieldType_ne_array (part : AttributeNode) (item : SqlType) :
    fieldType naming part ≠ .array item := by
  unfold fieldType
  split
  · exact nofun
  · cases part.type <;> exact nofun

/-- **No field is one of arrays.** -/
theorem Made.type_ne_array (h : Made naming d Q types) : ∀ type ∈ types.values,
    ∀ f ∈ type.fields, ∀ item, f.type ≠ .array item := by
  intro type htype f hf item
  obtain ⟨e, he, rfl⟩ := List.mem_map.mp htype
  obtain ⟨a, parts, -, -, rfl⟩ := h.exists_of_mem e he
  obtain ⟨part, -, rfl⟩ := List.mem_map.mp hf
  exact fieldType_ne_array part item

end TypeRegister

namespace Compilation

variable {schema : SchemaDecl} {groupings : List Grouping} {s : Settings} {c : Compilation}

/-! ## 2. Room for several values -/

/-- A composite type is that of an attribute with these parts if it is called after the attribute
and has a field for every part. -/
structure IsTypeOf (naming : Naming) (d : Diagram) (n : AttributeNode) (parts : List AttributeNode)
    (type : CompositeType) : Prop where
  name : type.name = naming.typeName n.path
  found : n.children.mapM d.attributeAt = .ok parts
  fields : type.fields.map CompositeField.name = parts.map fun part => Path.leaf part.path

/-- **Nothing takes one value where there may be several**: the column of a multivalued attribute
has a row for each value or is one of arrays, and so is the field of a multivalued part. -/
structure KeepsMultiplicity (schema : SchemaDecl) (groupings : List Grouping) (naming : Naming)
    (c : Compilation) : Prop where
  columns : ∀ t ∈ c.schema.tables, ∀ column ∈ t.columns, column.form.isKey = false →
    ∀ n, .attr n ∈ c.compiled.diagram.nodes → n.path = column.source → n.multivalued = true →
      column.form = .normalized ∨ ∃ item, column.type = .array item
  fields : ∀ n, schema.IsTypedNode groupings naming n → ∀ parts, ∀ type ∈ c.schema.types.values,
    IsTypeOf naming c.compiled.diagram n parts type → List.Forall₂ (fun part f =>
      part.multivalued = true → ∃ item, f.type = .array item) parts type.fields

/-- **Composite attributes and their parts have one value each**, as far as they are stored whole or
have a composite type. -/
structure HasSingleComposites (schema : SchemaDecl) (groupings : List Grouping) (naming : Naming)
    (c : Compilation) : Prop where
  stored : ∀ g ∈ groupings, ∀ n, g.Stores schema.diagram naming n → n.isComposite = true →
    n.multivalued = false
  parts : ∀ n, schema.IsTypedNode groupings naming n → ∀ parts, ∀ type ∈ c.schema.types.values,
    IsTypeOf naming schema.diagram n parts type → ∀ part ∈ parts, part.multivalued = false

namespace Passes

variable (h : Passes schema groupings s c)

include h

/-- No field of a composite type is one of arrays. -/
theorem field_ne_array {type : CompositeType} (htype : type ∈ c.schema.types.values)
    {f : CompositeField} (hf : f ∈ type.fields) (item : SqlType) : f.type ≠ .array item :=
  h.made_types.1.type_ne_array type htype f hf item

/-- The column of a stored composite attribute takes one value. -/
theorem multivalued_of_stores (hkeeps : c.KeepsMultiplicity schema groupings s.naming)
    {g : Grouping} (hg : g ∈ groupings) {n : AttributeNode}
    (hn : g.Stores schema.diagram s.naming n) (hcomposite : n.isComposite = true) :
    n.multivalued = false := by
  obtain ⟨t, ht, -, htable⟩ := h.exists_table hg
  obtain ⟨only, hcolumn⟩ := htable.columnOf_mem h.isIndexed hn
  refine Bool.eq_false_iff.mpr fun hmany => ?_
  have hroom := hkeeps.columns t ht _ hcolumn (Blueprint.isKey_columnForm only n) n
    (h.diagram ▸ hn.1) rfl hmany
  have hform : (Blueprint.columnOf ⟨schema.diagram, c.compiled.layout, s.naming⟩ only n).form =
      .composite := if_pos hcomposite
  have htype : (Blueprint.columnOf ⟨schema.diagram, c.compiled.layout, s.naming⟩ only n).type =
      .composite (s.naming.typeName n.path) := if_pos hcomposite
  rcases hroom with hnormalized | ⟨item, harray⟩
  · exact nomatch hform.symm.trans hnormalized
  · exact nomatch htype.symm.trans harray

/-- A column has room for the values of its attribute if composite attributes have one each. -/
theorem form_of_multivalued (hsingle : c.HasSingleComposites schema groupings s.naming)
    {t : Table} (ht : t ∈ c.schema.tables) {column : Column} (hcolumn : column ∈ t.columns)
    (hkey : column.form.isKey = false) {n : AttributeNode} (hn : .attr n ∈ schema.diagram.nodes)
    (hpath : n.path = column.source) (hmany : n.multivalued = true) :
    column.form = .normalized ∨ ∃ item, column.type = .array item := by
  obtain ⟨g, nodes, a, hg, hnames, ha, hname, hof⟩ := h.exists_isColumnOf ht hcolumn hkey
  have hmem := (Blueprint.mem_nodes_iff h.isIndexed
    (b := ⟨schema.diagram, c.compiled.layout, s.naming⟩)
    ((Grouping.names_iff h.isIndexed).mp hnames)).mp ha
  obtain rfl : n = a := Node.attr.inj
    (h.isIndexed.eq_of_path hn hmem.1 (hpath.trans hof.source))
  have hcomposite : n.isComposite = false := by
    refine Bool.eq_false_iff.mpr fun hcomposite => ?_
    have hone := hsingle.stored g (List.mem_of_getElem? hg) n ⟨hn, hname, hmem.2⟩ hcomposite
    exact nomatch hone.symm.trans hmany
  by_cases honly : nodes.filterMap Node.attr? = [n]
  · exact .inl (hof.normalized hcomposite hmany honly).1
  · exact .inr ⟨_, (hof.array hcomposite hmany honly).2⟩

end Passes

/-! ## 3. When there is room -/

/-- **There is room for all values exactly if composite attributes that are stored and their parts
have one value each.** -/
theorem keepsMultiplicity_iff (h : ofDecl schema groupings s = .ok c) :
    c.KeepsMultiplicity schema groupings s.naming ↔
      c.HasSingleComposites schema groupings s.naming := by
  have hpasses := ofDecl_eq_ok.mp h
  constructor
  · intro hkeeps
    refine ⟨fun g hg n hn hcomposite => hpasses.multivalued_of_stores hkeeps hg hn hcomposite,
      fun n hn parts type htype hof part hpart => Bool.eq_false_iff.mpr fun hmany => ?_⟩
    obtain ⟨f, hf, hroom⟩ := exists_of_mem_left
      (hkeeps.fields n hn parts type htype (hpasses.diagram ▸ hof)) hpart
    obtain ⟨item, harray⟩ := hroom hmany
    exact hpasses.field_ne_array htype hf item harray
  · intro hsingle
    refine ⟨fun t ht column hcolumn hkey n hn hpath hmany => ?columns,
      fun n hn parts type htype hof => ?fields⟩
    case columns =>
      rw [hpasses.diagram] at hn
      exact hpasses.form_of_multivalued hsingle ht hcolumn hkey hn hpath hmany
    case fields =>
      rw [hpasses.diagram] at hof
      -- the fields are as many as the parts, none of which asks for an array
      have hfields := hof.fields
      rw [← List.forall₂_eq_eq_eq, List.forall₂_map_left_iff, List.forall₂_map_right_iff] at hfields
      refine (forall₂_mem hfields.flip).imp fun part f ⟨hpart, _, _⟩ hmany => ?_
      have hone := hsingle.parts n hn parts type htype hof part hpart
      exact nomatch hone.symm.trans hmany

/-- Composite attributes have one value each where only attributes that are neither composite nor
parts have several. -/
theorem Passes.hasSingleComposites (h : Passes schema groupings s c)
    (hplain : ∀ n, .attr n ∈ schema.diagram.nodes → n.multivalued = true →
      n.isComposite = false ∧ n.parent = none) :
    c.HasSingleComposites schema groupings s.naming where
  stored := by
    intro g _ n hn hcomposite
    refine Bool.eq_false_iff.mpr fun hmany => ?_
    exact nomatch (hplain n hn.1 hmany).1.symm.trans hcomposite
  parts := by
    rintro n ⟨above, owner, parent, a, ha, rfl⟩ parts type - hof part hpart
    obtain ⟨path, hpath, hat⟩ := exists_of_mem_right (mapM_eq_ok.mp hof.found) hpart
    obtain ⟨b, hb, rfl, -⟩ := ha.declared.exists_part h.isIndexed hpath hat
    refine Bool.eq_false_iff.mpr fun hmany => ?_
    exact nomatch (hplain _ (ha.declared.part hb).mem_nodes hmany).2

/-- A person's phones are stored beside the name and once more by themselves. -/
def groupingsOfPhones : List (List String) :=
  [["Person", "Person.Name", "Person.phone"], ["Person", "Person.phone"]]

/-- Phones are in arrays beside the name, and in rows where they are by themselves. -/
theorem keepsMultiplicity_iff_phones : ∃ c,
    ofDecl ⟨[.person], []⟩ (groupingsOfPhones.map .ofNames) .standard = .ok c ∧
    c.KeepsMultiplicity ⟨[.person], []⟩ (groupingsOfPhones.map .ofNames) .standard ∧
    (c.schema.tables.map fun t => t.columns.map Column.form) =
      [[.key "person", .composite, .array], [.key "person", .normalized]] := by
  have hrun : (ofDecl ⟨[.person], []⟩ (groupingsOfPhones.map .ofNames) .standard).toOption.any
      (fun c => decide ((c.schema.tables.map fun t => t.columns.map Column.form) =
        [[.key "person", .composite, .array], [.key "person", .normalized]])) = true := by
    decide +kernel
  obtain ⟨c, hc, hforms⟩ := exists_of_any hrun
  have hplain : ∀ n ∈ (SchemaDecl.diagram ⟨[.person], []⟩).nodes.filterMap Node.attr?,
      n.multivalued = true → n.isComposite = false ∧ n.parent = none := by decide +kernel
  refine ⟨c, hc, (keepsMultiplicity_iff hc).mpr ?_, of_decide_eq_true hforms⟩
  exact (ofDecl_eq_ok.mp hc).hasSingleComposites fun n hn =>
    hplain n (Node.mem_filterMap_attr?.mpr hn)

end Compilation

/-! ## 4. An example -/

/-- Persons with any number of addresses, each a city with any number of phones. -/
def SchemaDecl.addresses : SchemaDecl where
  entities := [⟨"Person", .regular, none, [⟨"person_id", .integer, true, false, false, []⟩,
    ⟨"name", .varchar, false, false, false, []⟩,
    ⟨"address", .composite, false, false, true, [⟨"city", .varchar, false, false, false, []⟩,
      ⟨"phone", .varchar, false, false, true, []⟩]⟩]⟩]
  relationships := []

/-- Persons with their addresses. -/
def Grouping.ofAddresses : Grouping := .ofNames ["Person", "Person.name", "Person.address"]

/-- **One address with one phone for a person who has several**: the column of the addresses is of
their composite type, and the field of the phones takes one text. -/
theorem Compilation.not_keepsMultiplicity_addresses : ∃ c t column address phone,
    ofDecl .addresses [.ofAddresses] .standard = .ok c ∧
    t ∈ c.schema.tables ∧ column ∈ t.columns ∧
    (.attr address ∈ c.compiled.diagram.nodes ∧ address.path = column.source ∧
      address.multivalued = true ∧ column.form = .composite ∧
      column.type = .composite "person_address_type") ∧
    (.attr phone ∈ c.compiled.diagram.nodes ∧ phone.path = "person.address.phone" ∧
      phone.multivalued = true ∧ c.schema.types.get? "person_address_type" =
        some ⟨"person_address_type", [⟨"city", .varchar 255⟩, ⟨"phone", .varchar 255⟩]⟩) ∧
    ¬c.KeepsMultiplicity .addresses [.ofAddresses] .standard := by
  have hrun : (ofDecl .addresses [.ofAddresses] .standard).toOption.any (fun c =>
      (c.schema.tables.any fun t => t.columns.any fun column =>
        (c.compiled.diagram.nodes.filterMap Node.attr?).any fun address =>
          decide (address.path = column.source ∧ address.multivalued = true ∧
            column.form = .composite ∧ column.type = .composite "person_address_type")) &&
      (c.compiled.diagram.nodes.filterMap Node.attr?).any fun phone =>
        decide (phone.path = "person.address.phone" ∧ phone.multivalued = true ∧
          c.schema.types.get? "person_address_type" = some ⟨"person_address_type",
            [⟨"city", .varchar 255⟩, ⟨"phone", .varchar 255⟩]⟩)) = true := by
    decide +kernel
  obtain ⟨c, hc, hrun⟩ := exists_of_any hrun
  obtain ⟨htables, hphones⟩ := Bool.and_eq_true_iff.mp hrun
  obtain ⟨t, ht, hcolumns⟩ := List.any_eq_true.mp htables
  obtain ⟨column, hcolumn, haddresses⟩ := List.any_eq_true.mp hcolumns
  obtain ⟨address, haddress, hshown⟩ := List.any_eq_true.mp haddresses
  obtain ⟨hpath, hmany, hform, htype⟩ := of_decide_eq_true hshown
  obtain ⟨phone, hphone, hfields⟩ := List.any_eq_true.mp hphones
  have haddress := Node.mem_filterMap_attr?.mp haddress
  refine ⟨c, t, column, address, phone, hc, ht, hcolumn, ⟨haddress, hpath, hmany, hform, htype⟩,
    ⟨Node.mem_filterMap_attr?.mp hphone, of_decide_eq_true hfields⟩, fun hkeeps => ?_⟩
  rcases hkeeps.columns t ht column hcolumn (by rw [hform]; rfl) address haddress hpath hmany with
    hnormalized | ⟨item, harray⟩
  · exact nomatch hform.symm.trans hnormalized
  · exact nomatch htype.symm.trans harray

end EntityLayout

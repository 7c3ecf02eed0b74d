/-
# A compilation can be saved

What a compilation results in is written to two texts and taken up from them again.

* `Passes.isCoherent`: no reference dangles, and what was derived stands in the order of the
  nodes.
* `Passes.fits`, `Passes.fits_schema`: the formats have room for it.
* `Compilation.load_saved`: **loading what was saved gives the compilation back.**
* `Compilation.load_resaved`: the same of whatever was loaded, from any two texts.
-/
import EntityLayout.Proofs.Compilation.Passes
import EntityLayout.Proofs.Document.Resaving
import EntityLayout.Proofs.Tables.TypeOrder

namespace EntityLayout

open Sql (SqlType)

/-! ## 1. Column types -/

theorem Sql.SqlType.levels_ofAttributeType (t : AttributeType) :
    (ofAttributeType t).levels ≤ 1 := by
  cases t with
  | varchar => exact Nat.le_refl 1
  | _ => exact Nat.zero_le 1

theorem Sql.SqlType.fits_ofAttributeType (t : AttributeType) : (ofAttributeType t).Fits where
  width := by
    cases t with
    | varchar => exact show varcharWidth < 0x10000 by decide
    | _ => exact trivial
  levels := Nat.le_trans (levels_ofAttributeType t) (by decide)

theorem Sql.SqlType.fits_composite (name : String) : (composite name).Fits :=
  ⟨trivial, show 1 ≤ 122 by decide⟩

theorem Blueprint.fits_columnType {b : Blueprint} {only : Bool} {a : AttributeNode} :
    (b.columnType only a).Fits := by
  have hsingle := SqlType.fits_ofAttributeType a.type
  unfold columnType
  split
  · exact SqlType.fits_composite _
  split
  · refine ⟨hsingle.width, ?_⟩
    have := SqlType.levels_ofAttributeType a.type
    rw [SqlType.levels]
    omega
  · exact hsingle

theorem TypeRegister.fits_fieldType {naming : Naming} {part : AttributeNode} :
    (fieldType naming part).Fits := by
  unfold fieldType
  split
  · exact SqlType.fits_composite _
  · exact SqlType.fits_ofAttributeType part.type

/-- The columns of a table of a grouping fit. -/
theorem Blueprint.IsTable.fits_column {b : Blueprint} {index : Nat} {g : Grouping} {t : Table}
    (h : b.IsTable index g t) : ∀ c ∈ t.columns, c.type.Fits := by
  obtain ⟨nodes, keys, -, hkeys, rfl, -⟩ := h
  intro c hc
  rcases List.mem_append.mp hc with hc | hc
  · obtain ⟨stem, entity, rfl⟩ := hkeys.isKeyColumn c hc
    exact SqlType.fits_ofAttributeType .integer
  · obtain ⟨a, -, rfl⟩ := List.mem_map.mp hc
    exact fits_columnType

/-! ## 2. Whole compilations -/

namespace Compilation

namespace Passes

variable {schema : SchemaDecl} {groupings : List Grouping} {s : Settings} {c : Compilation}
  (h : Passes schema groupings s c)

include h

/-- **What a compilation derives is coherent.** -/
theorem isCoherent : c.compiled.IsCoherent where
  indexed := h.diagram ▸ h.isIndexed
  references := by
    rw [h.diagram]
    exact fun n hn p hp => h.wellFormed.mem_paths_of_reference hn hp
  edges := by
    rw [h.diagram]
    exact fun e he => h.wellFormed.mem_paths_of_edge he
  layout := by
    rw [h.diagram, CompiledDiagram.entityPaths, ← Diagram.map_path_entities]
    exact Diagram.classify_names h.layout h.isIndexed
  ownership := by
    rw [h.diagram]
    exact Ownership.resolve_names h.ownership h.isIndexed
  structures := by
    rw [h.diagram]
    exact Structures.derive_names h.structures h.isIndexed

/-- Structures keep the types and the nesting of the declared attributes. -/
theorem fit_structures (hschema : schema.Fits) :
    ∀ e ∈ c.compiled.structures.entries, Attribute.Fit e.2 := by
  let P : Attribute → Prop := fun a => a.IsSpelled ∧ a.height ≤ Attribute.heightLimit
  have hrename : ∀ (a : Attribute) (name : String), P a → P { a with name } := fun a name ha =>
    ⟨Attribute.isSpelled_iff.mpr (Attribute.isSpelled_iff (a := a).mp ha.1),
      by rw [Attribute.height_eq]; exact a.height_eq ▸ ha.2⟩
  have hfit : ∀ {as : List Attribute}, Attribute.Fit as → ∀ a ∈ as.map Attribute.logical, P a :=
    fun hfit a ha => ⟨hfit.logical.spelled a ha, hfit.logical.height a ha⟩
  have hall := Structures.derive_forall hrename h.structures h.isIndexed (by
    intro n hn howner own hown
    cases n with
    | entity e =>
      obtain ⟨e, he, rfl⟩ := SchemaDecl.entity_mem_nodes_iff.mp hn
      obtain rfl := Except.ok.inj (hown.symm.trans (h.wellFormed.own_entity he))
      exact hfit (hschema.entities e he)
    | relationship r =>
      obtain ⟨r, hr, rfl⟩ := SchemaDecl.relationship_mem_nodes_iff.mp hn
      obtain rfl := Except.ok.inj (hown.symm.trans (h.wellFormed.own_relationship hr))
      exact hfit (hschema.relationships r hr)
    | attr a => exact nomatch howner)
  exact fun e he => ⟨fun a ha => (hall e he a ha).1, fun a ha => (hall e he a ha).2⟩

/-- The format of diagrams has room for what a compilation derives. -/
theorem fits (hschema : schema.Fits) (hgroupings : groupings.length ≤ 0x10000000000000000) :
    c.compiled.Fits := by
  have hstructure : ∀ path, Attribute.Fit ((c.compiled.structures.get? path).getD []) := by
    intro path
    cases hget : c.compiled.structures.get? path with
    | none => exact ⟨fun a ha => absurd ha List.not_mem_nil, fun a ha => absurd ha List.not_mem_nil⟩
    | some as => exact h.fit_structures hschema _ (Register.get?_eq_some.mp hget)
  intro n hn
  rw [h.diagram] at hn
  cases n with
  | entity e =>
    refine ⟨fun made hmade g hg => ?_, hstructure _⟩
    have hdecision := Diagram.classify_entity h.layout h.isIndexed hn
    rw [show c.compiled.layout.get? e.path = some made from hmade] at hdecision
    exact Nat.lt_of_lt_of_le (Diagram.grouping_lt_of_decision hdecision g hg) hgroupings
  | relationship r => exact ⟨rfl, hstructure _⟩
  | attr a =>
    refine ⟨⟨rfl, rfl, rfl⟩, ?_⟩
    obtain ⟨owner, path, as, hfit, ha⟩ : ∃ owner path as, Attribute.Fit as ∧
        a ∈ Attribute.nodesOf path owner none as := by
      rcases SchemaDecl.mem_nodes.mp hn with ⟨e, he, hn⟩ | ⟨r, hr, hn⟩
      · refine ⟨e.path, e.path, e.attributes, hschema.entities e he, ?_⟩
        simpa [EntityDecl.nodes, EntityDecl.attributeNodes] using hn
      · refine ⟨r.path, r.path, r.attributes, hschema.relationships r hr, ?_⟩
        simpa [RelationshipDecl.nodes, RelationshipDecl.attributeNodes] using hn
    rw [Attribute.nodesOf_eq_flatMap] at ha
    obtain ⟨b, hb, ha⟩ := List.mem_flatMap.mp ha
    exact Attribute.type_isSpelled_of_mem_nodes (hfit.spelled b hb) ha

/-- The format of tables has room for those of a compilation. -/
theorem fits_schema (hgroupings : groupings.length ≤ 0x10000000000000000) : c.schema.Fits where
  tables := by
    intro t ht
    obtain ⟨g, hg, htable⟩ := synthesize_of_mem h.tables ht
    have hlt : t.grouping < groupings.length := (List.getElem?_eq_some_iff.mp hg).1
    exact ⟨Nat.lt_of_lt_of_le hlt hgroupings, htable.fits_column⟩
  types := by
    intro e he f hf
    obtain ⟨hmade, -⟩ := synthesize_types h.tables h.isIndexed h.wellFormed.isHereditary
      fun _ _ _ ha _ => ha.1
    obtain ⟨a, parts, -, -, rfl⟩ := hmade.exists_of_mem e he
    obtain ⟨part, -, rfl⟩ := List.mem_map.mp hf
    exact TypeRegister.fits_fieldType

end Passes

/-- **Loading what was saved gives the compilation back**: the same diagram with everything
derived for it and the same tables, so also the same scripts and queries.  No text that a
machine holds has 2 ^ 63 characters. -/
theorem load_saved {schema groupings : String} {s : Settings} {c : Compilation}
    (h : ofTexts schema groupings s = .ok c) (hlen : groupings.length < 0x8000000000000000) :
    load c.compiled.toText c.schema.toText s = .ok c := by
  obtain ⟨decl, gs, hdecl, hgs, hpasses⟩ := ofTexts_eq_ok.mp h
  have hlength : gs.length ≤ 0x10000000000000000 := by
    have := Json.length_le_of_readText_list hgs
    omega
  have hcompiled : (CompiledDiagram.ofText c.compiled.toText).mapError CompileError.load =
      .ok c.compiled :=
    mapError_eq_ok.mpr (CompiledDiagram.ofText_toText hpasses.isCoherent
      (hpasses.fits (SchemaDecl.fits_of_readText hdecl) hlength))
  have hschema : (PhysicalSchema.ofText c.schema.toText).mapError CompileError.input =
      .ok c.schema :=
    mapError_eq_ok.mpr (PhysicalSchema.ofText_toText (hpasses.fits_schema hlength))
  rw [load, hcompiled, ok_bind, hschema, ok_bind, ← hpasses.settings.1, ← hpasses.settings.2]
  rfl

/-- Persons with a composite name and students, each record written as the list of its
fields. -/
theorem load_saved_students : ∃ c : Compilation,
    ofTexts ("[[[\"Person\",\"REGULAR\",null,[[\"person_id\",\"INT\"],"
        ++ "[\"name\",\"COMPOSITE\",false,false,false,[[\"first\",\"VARCHAR\"]]]]],"
        ++ "[\"Student\",\"SUBCLASS\",\"Person\",[[\"year\",\"INT\"]]]]]")
      "[[\"Person\",\"Person.name\"],[\"Person\",\"Student\",\"Student.year\"]]" .standard = .ok c ∧
    load c.compiled.toText c.schema.toText .standard = .ok c := by
  refine (exists_of_isOk ?_).imp fun c hc => ⟨hc, load_saved hc (by decide)⟩
  decide +kernel

/-- **Whatever was loaded can be saved and loaded again**: the same nodes and edges with everything
recorded for them and the same tables and types, in the same order. -/
theorem load_resaved {diagram tables : String} {s : Settings} {c : Compilation}
    (h : load diagram tables s = .ok c) : load c.compiled.toText c.schema.toText s = .ok c := by
  obtain ⟨compiled, hcompiled, h⟩ := bind_eq_ok.mp h
  obtain ⟨schema, hschema, h⟩ := bind_eq_ok.mp h
  obtain rfl := pure_eq_ok.mp h
  have hcompiled' : (CompiledDiagram.ofText compiled.toText).mapError CompileError.load =
      .ok compiled :=
    mapError_eq_ok.mpr (CompiledDiagram.ofText_resaved (mapError_eq_ok.mp hcompiled))
  have hschema' : (PhysicalSchema.ofText schema.toText).mapError CompileError.input = .ok schema :=
    mapError_eq_ok.mpr (PhysicalSchema.ofText_resaved (mapError_eq_ok.mp hschema))
  rw [load, hcompiled', ok_bind, hschema', ok_bind]
  rfl

/-- A regular entity with a decision, an attribute and an edge that name it in other letters, a node
whose own path is not in small letters, and a column of lists of lists; each record is written as
the list of its fields. -/
theorem load_resaved_by_hand : ∃ c : Compilation,
    load ("[[[\"ENTITY\",\"Person\",\"person\",\"REGULAR\",null,[\"PERSON.Id\"],[1,true,7],[\"t\"],"
        ++ "[[\"id\",\"int\"]]],"
        ++ "[\"ATTRIBUTE\",\"id\",\"person.id\",\"int\",false,true,false,\"Person\"],"
        ++ "[\"ATTRIBUTE\",\"Note\",\"Note\",\"money\",false,false,false,\"PERSON\","
        ++ "\"Person.ID\"]],"
        ++ "[[\"ENTITY_ENTITY\",\"Person\",\"PERSON.ID\"]]]")
      ("[[[\"t\",3,[[\"id\",\x7b\"array\":\x7b\"array\":\"integer\"\x7d\x7d,\"x\","
        ++ "[\"value\"]]]]]]") .standard = .ok c ∧
    load c.compiled.toText c.schema.toText .standard = .ok c := by
  refine (exists_of_isOk ?_).imp fun c hc => ⟨hc, load_resaved hc⟩
  decide +kernel

end Compilation

end EntityLayout

/-
# Regular entities whose attributes are stored have queries

A regular entity has a query if its first attribute is its key, the tables of its groupings
store the others, and one of its tables repeats no name.  Every name that the passes make up on
the way has to agree: the name of the key in the structure with that of the key column, the
path of an attribute with the name of its column, and the origin of a column that was split out
of a composite attribute with the name of that attribute.

* `Compilation.IsStored`: which entities.
* `Compilation.select_regular`: **their queries select every attribute, the key first.**
-/
import EntityLayout.Proofs.Compilation.Joins
import EntityLayout.Proofs.Diagram.Paths

namespace EntityLayout

open Reconstruction (Reads Shows)

namespace Compilation

/-- A regular entity is stored: its first attribute and no other is a key; some grouping that
holds the entity holds each other attribute, or a part of it that is not a key; and one of its
tables is that of a grouping that repeats no name. -/
structure IsStored (c : Compilation) (groupings : List Grouping) (naming : Naming)
    (e : EntityDecl) : Prop where
  regular : e.kind = .regular
  keyed : ∃ key rest, e.attributes = key :: rest ∧
    naming.isKeyName (key.pathBelow e.path) = true ∧
      ∀ a ∈ rest, naming.isKeyName (a.pathBelow e.path) = false
  held : ∀ a ∈ e.attributes.tail, ∃ g ∈ groupings, g.contains e.path = true ∧
    (g.contains (a.pathBelow e.path) = true ∨ a.isComposite = true ∧
      ∃ part ∈ a.nodes e.path e.path none, part.parent.isSome = true ∧
        naming.isKeyName part.path = false ∧ g.contains part.path = true)
  plain : ∃ t ∈ c.compiled.ownership.tablesIn c.schema e.path,
    ∃ g, groupings[t.grouping]? = some g ∧ g.repeated = []

variable {schema : SchemaDecl} {groupings : List Grouping} {s : Settings} {c : Compilation}
  {e : EntityDecl}

/-! ## 1. The tables of a regular entity -/

theorem parent_regular (hregular : e.kind = .regular) : e.node.parent = none := by
  rw [EntityDecl.parent_node, EntityDecl.parentPath, hregular]

namespace Passes

variable (h : Passes schema groupings s c) (he : e ∈ schema.entities)

include h he

/-- A table whose grouping holds an entity and one of its attributes is its own. -/
theorem mem_tablesIn_of_column {t : Table} (ht : t ∈ c.schema.tables) {g : Grouping}
    (hg : groupings[t.grouping]? = some g) (hcontains : g.contains e.path = true)
    {n : AttributeNode} (hn : n ∈ e.attributeNodes) {column : Column} (hcolumn : column ∈ t.columns)
    (hsource : column.source = n.path) :
    t ∈ c.compiled.ownership.tablesIn c.schema e.path := by
  refine (h.mem_tablesIn_entity he).mpr ⟨ht, .inl (Ownership.ownsDirectly_iff.mpr
    ⟨⟨g, hg, hcontains⟩, n.path, List.mem_map_of_mem hn, ?_⟩)⟩
  exact List.any_eq_true.mpr ⟨column, hcolumn, by simpa using hsource⟩

/-- Every attribute that is stored has a column of its name or columns that were split out of
it. -/
theorem exists_column (hplain : e.IsPlain) (hstored : IsStored c groupings s.naming e)
    {a : Attribute} (ha : a ∈ e.attributes.tail) :
    ∃ t ∈ c.compiled.ownership.tablesIn c.schema e.path, ∃ column ∈ t.columns,
      column.name = Text.lower a.name ∨
        a.isComposite = true ∧ column.flattenedFrom = some (Text.lower a.name) := by
  obtain ⟨key, rest, hattributes, -, hrest⟩ := hstored.keyed
  have hmem : a ∈ e.attributes := List.mem_of_mem_tail ha
  have hkey : s.naming.isKeyName (a.pathBelow e.path) = false :=
    hrest a (by rwa [hattributes] at ha)
  obtain ⟨g, hg, hcontains, hheld⟩ := hstored.held a ha
  obtain ⟨t, ht, hgrouping, htable⟩ := h.exists_table hg
  -- the node that the grouping holds, with its column
  obtain ⟨n, hn, hnkey, hheldn, hname⟩ : ∃ n ∈ a.nodes e.path e.path none,
      s.naming.isKeyName n.path = false ∧ g.contains n.path = true ∧
        (n = a.node e.path e.path none ∨ a.isComposite = true ∧ n.parent.isSome = true) := by
    rcases hheld with hheld | ⟨hcomposite, part, hpart, hparent, hpartkey, hheld⟩
    · exact ⟨_, a.node_mem_nodes _ _ _, hkey, hheld, .inl rfl⟩
    · exact ⟨part, hpart, hpartkey, hheld, .inr ⟨hcomposite, hparent⟩⟩
  have hattr : n ∈ e.attributeNodes := EntityDecl.mem_attributeNodes hmem hn
  have hnode := SchemaDecl.attribute_mem_nodes he n hattr
  have hlower := h.isIndexed.lower_path hnode
  have hstores : g.Stores schema.diagram s.naming n :=
    ⟨hnode, hnkey, n.path, List.contains_iff_mem.mp hheldn, hlower⟩
  obtain ⟨only, hcolumn⟩ := htable.columnOf_mem h.isIndexed hstores
  refine ⟨t, h.mem_tablesIn_of_column he ht hgrouping hcontains hattr hcolumn rfl, _, hcolumn, ?_⟩
  rcases hname with rfl | ⟨hcomposite, hparent⟩
  · exact .inl (hplain.columnName_path hmem)
  · obtain ⟨parent, hparent⟩ := Option.isSome_iff_exists.mp hparent
    refine .inr ⟨hcomposite, ?_⟩
    rw [Blueprint.columnOf, hparent, Option.map_some, hplain.rootPart_path hmem hn]

/-- The key of the entity is a column of one of its tables. -/
theorem exists_keyColumn (hstored : IsStored c groupings s.naming e) :
    ∃ t ∈ c.compiled.ownership.tablesIn c.schema e.path, ∃ column ∈ t.columns,
      column.name = s.naming.keyColumn e.path := by
  obtain ⟨t, ht, g, hg, hrepeated⟩ := hstored.plain
  have hown := keepsToItself_regular (c := c) hstored.regular
  obtain ⟨g', hg', hcontains, htable⟩ := h.exists_grouping he hown ht
  obtain rfl := Option.some.inj (hg.symm.trans hg')
  exact ⟨t, ht, _, htable.key_mem h.isIndexed (SchemaDecl.entity_mem_nodes he) hcontains
    (h.isKeyed_of_keeps he hown) hrepeated, rfl⟩

/-- The structure of the entity has the key column in first place and then the other attributes
as they were declared. -/
theorem structure_regular (hmodifier : '.' ∉ s.naming.keyModifier.toList) (hplain : e.IsPlain)
    (hstored : IsStored c groupings s.naming e) :
    ∃ key : Attribute, c.compiled.structures.get? e.path =
      some ({ key with name := s.naming.keyColumn e.path } ::
        e.attributes.tail.map Attribute.logical) := by
  obtain ⟨key, rest, hattributes, hkey, -⟩ := hstored.keyed
  obtain ⟨inherited, hinherits, hget⟩ := h.structure_entity he
  have hparent : e.node.parent = none := parent_regular hstored.regular
  obtain rfl := (Structures.Inherits.iff_of_none hparent).mp hinherits
  have hname : s.naming.isKeyName key.logical.name = true := by
    rw [hplain.isKeyName_path (hattributes ▸ List.mem_cons_self) hmodifier] at hkey
    rw [Attribute.name_logical, hkey]
  refine ⟨key.logical, hget.trans ?_⟩
  rw [Structures.withInherited, hparent, hattributes, List.nil_append, List.map_cons,
    List.tail_cons]
  exact congrArg some (if_pos hname)

end Passes

/-! ## 2. The query -/

/-- **The query of a stored regular entity selects every attribute in order of declaration**, the
key column first. -/
theorem select_regular (h : ofDecl schema groupings s = .ok c)
    (hmodifier : '.' ∉ s.naming.keyModifier.toList) (he : e ∈ schema.entities)
    (hplain : e.IsPlain) (hstored : IsStored c groupings s.naming e) :
    ∃ q first others, c.compiled.queryFor c.schema e.name = .ok q ∧
      q.select = first :: others.flatten ∧
        (∃ t column, Reads (c.compiled.ownership.tablesIn c.schema e.path) first t column ∧
          column.name = s.naming.keyColumn e.path) ∧
        List.Forall₂ (fun a items => Shows (c.compiled.ownership.tablesIn c.schema e.path) a
          (Text.lower a.name) items) e.attributes.tail others := by
  have hpasses := ofDecl_eq_ok.mp h
  obtain ⟨key, hstructure⟩ := hpasses.structure_regular he hmodifier hplain hstored
  have hcolumns := fun a ha => hpasses.exists_column he hplain hstored (a := a) ha
  obtain ⟨t, ht, column, hcolumn, hname⟩ := hpasses.exists_keyColumn he hstored
  have hkeys := fun t ht =>
    hpasses.exists_joinKey he (keepsToItself_regular hstored.regular) (t := t) ht
  generalize htables : c.compiled.ownership.tablesIn c.schema e.path = tables at *
  -- the key has an item of its own: a column is called like it
  obtain ⟨t₀, c₀, hdirect⟩ := Reconstruction.exists_direct? ht hcolumn hname
  obtain ⟨ht₀, hc₀, hname₀⟩ := Reconstruction.direct?_eq_some hdirect
  have hfirst : Reconstruction.itemsFor e.path tables
      { key with name := s.naming.keyColumn e.path } = _ :=
    Reconstruction.itemsFor_eq_ok.mpr (.inl ⟨t₀, c₀, hdirect, rfl⟩)
  -- the others have items by their columns
  obtain ⟨others, hothers⟩ : ∃ others, List.Forall₂
      (fun a items => Reconstruction.itemsFor e.path tables (Attribute.logical a) = .ok items)
        e.attributes.tail others := by
    refine exists_forall₂ fun a ha => ?_
    obtain ⟨u, hu, d, hd, hcases⟩ := hcolumns a ha
    refine Reconstruction.exists_itemsFor hu hd ?_
    rwa [Attribute.isComposite_logical, Attribute.name_logical]
  obtain ⟨anchor, rest, rfl⟩ := List.exists_cons_of_ne_nil (List.ne_nil_of_mem ht)
  obtain ⟨joins, hjoins⟩ : ∃ joins, Reconstruction.joins e.path anchor rest = .ok joins :=
    Reconstruction.exists_joins hkeys
  have hquery := Reconstruction.query_eq_ok.mpr ⟨anchor, rest, joins, _ :: others, rfl, hjoins,
    .cons hfirst (List.forall₂_map_left_iff.mpr hothers), rfl⟩
  refine ⟨_, _, others, hpasses.queryFor_eq_ok.mpr ⟨_, hstructure, htables ▸ hquery⟩, rfl,
    ⟨t₀, c₀, ⟨ht₀, hc₀, Reconstruction.references_directItem _ _ _⟩, hname₀⟩, ?_⟩
  exact hothers.imp fun a items hitems => by
    simpa only [Shows, Attribute.isComposite_logical, Attribute.name_logical]
      using Reconstruction.shows_itemsFor hitems

/-- The query for persons, whose names are stored in parts and whose phones are apart. -/
theorem select_regular_person : ∃ c,
    ofDecl .courses (Grouping.ofCourses.map .ofNames) .standard = .ok c ∧
      EntityDecl.person.IsPlain ∧
        IsStored c (Grouping.ofCourses.map .ofNames) .standard .person ∧
          ∃ q first, ∃ others : List (List Sql.SelectItem),
            c.compiled.queryFor c.schema "Person" = .ok q ∧ q.select = first :: others.flatten ∧
              others.length = 2 := by
  have hunique : (ofDecl .courses (Grouping.ofCourses.map .ofNames) .standard).toOption.any
      (fun c => (c.compiled.ownership.tablesIn c.schema "person").any fun t =>
        ((Grouping.ofCourses.map Grouping.ofNames)[t.grouping]?).any (·.repeated.isEmpty)) =
          true := by
    decide +kernel
  obtain ⟨c, hc, hunique⟩ := exists_of_any hunique
  obtain ⟨t, ht, hunique⟩ := List.any_eq_true.mp hunique
  obtain ⟨g, hg, hrepeated⟩ := (Option.any_eq_true _ _).mp hunique
  have hpath : "person" = EntityDecl.person.path := by decide +kernel
  have hplain : EntityDecl.person.IsPlain := ⟨by decide +kernel, by decide +kernel⟩
  have hstored : IsStored c (Grouping.ofCourses.map .ofNames) .standard .person := {
    regular := rfl
    keyed := ⟨_, _, rfl, by decide +kernel, by decide +kernel⟩
    held := by decide +kernel
    plain := ⟨t, hpath ▸ ht, g, hg, List.isEmpty_iff.mp hrepeated⟩ }
  obtain ⟨q, first, others, hq, hselect, -, hall⟩ :=
    select_regular hc (by decide +kernel) List.mem_cons_self hplain hstored
  exact ⟨c, hc, hplain, hstored, q, first, others, hq, hselect, hall.length_eq.symm⟩

end Compilation

end EntityLayout

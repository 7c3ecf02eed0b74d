/-
# The key by which a weak entity begins

The structure of a weak entity begins with the first attribute of its owner.  That attribute is
handed on along a chain of owners and of parents that subclasses share their storage with, so it is
called after the entity at the end of the chain.  The tables of the weak entity have a column of
that name only if their groupings ask for it, and only then can the weak entity be queried.

* `Compilation.GoesBy`, `EntityDecl.leadingKey?`: whose key it is, and what it is called.
* `Compilation.Offers`: **the names of the columns of a table**, by its grouping.
* `Compilation.LeadsWithKey`, `Compilation.leadsWithKey_weak`: **when the key of the owner has a
  column** among the tables of a weak entity, and what becomes of its query.
* `Compilation.lacksLeadingColumn_campus`: it does not always have one.
-/
import EntityLayout.Proofs.Compilation.Closure
import EntityLayout.Proofs.Compilation.Sides
import EntityLayout.Proofs.Compilation.Storage

namespace EntityLayout

variable {schema : SchemaDecl} {groupings : List Grouping}

/-! ## 1. Whose key it is -/

/-- What the structure of an entity begins with if nothing is handed on to it: a regular entity
begins with its first attribute, which takes the name of the key column if it is a key, and any
other one with its key column. -/
def EntityDecl.leadingKey? (naming : Naming) (e : EntityDecl) : Option String :=
  match e.kind with
  | .regular => e.attributes.head?.map fun a =>
      if naming.isKeyName (Text.lower a.name) then naming.keyColumn e.path else Text.lower a.name
  | _ => some (naming.keyColumn e.path)

namespace Compilation

/-- A weak entity has no tables from its owner. -/
theorem keepsToItself_weak {c : Compilation} {e : EntityDecl} (h : e.kind = .weak) :
    c.KeepsToItself e :=
  fun hsub => nomatch h.symm.trans hsub

/-- The entity by whose key an entity goes: itself if it is no weak entity and keeps to itself, else
the one by whose key its owner or parent goes. -/
inductive GoesBy (schema : SchemaDecl) (c : Compilation) : EntityDecl → EntityDecl → Prop where
  | self {e : EntityDecl} : e.kind ≠ .weak → c.KeepsToItself e → GoesBy schema c e e
  | parent {e p q : EntityDecl} : e.kind = .weak ∨ ¬c.KeepsToItself e → p ∈ schema.entities →
      e.parentPath = some p.path → GoesBy schema c p q → GoesBy schema c e q

variable {s : Settings} {c : Compilation} {e p q : EntityDecl}

/-- The entity at the end of the chain keeps to itself. -/
theorem GoesBy.keeps (h : GoesBy schema c e q) : q.kind ≠ .weak ∧ c.KeepsToItself q := by
  induction h with
  | self hkind hkeeps => exact ⟨hkind, hkeeps⟩
  | parent _ _ _ _ ih => exact ih

namespace Passes

variable (h : Passes schema groupings s c)

include h

/-- Every entity goes by the key of some entity. -/
theorem exists_goesBy : ∀ e ∈ schema.entities, ∃ q ∈ schema.entities, GoesBy schema c e q := by
  refine h.wellFormed.entity_induction fun e he ih => ?_
  by_cases hself : e.kind ≠ .weak ∧ c.KeepsToItself e
  · exact ⟨e, he, .self hself.1 hself.2⟩
  · have hfrom : e.kind = .weak ∨ ¬c.KeepsToItself e := by
      rw [not_and_or, not_not] at hself
      exact hself
    have hkind : e.kind ≠ .regular := by
      intro hregular
      rcases hfrom with hweak | hshares
      · exact nomatch hregular.symm.trans hweak
      · exact hshares (keepsToItself_regular hregular)
    obtain ⟨p, hp, hparent, q, hq, hgoes⟩ := ih hkind
    exact ⟨q, hq, .parent hfrom hp hparent hgoes⟩

/-- An entity that goes by its own key begins with it. -/
theorem leadingName?_of_keeps (he : e ∈ schema.entities) (hkind : e.kind ≠ .weak)
    (hkeeps : c.KeepsToItself e) : c.leadingName? e.path = e.leadingKey? s.naming := by
  obtain ⟨inherited, hinherits, hget⟩ := h.structure_entity he
  rw [leadingName?, structureNames, hget, Option.getD_some, EntityDecl.leadingKey?]
  cases hcase : e.kind with
  | weak => exact absurd hcase hkind
  | regular =>
    have hparent : e.node.parent = none := parent_regular hcase
    obtain rfl := (Structures.Inherits.iff_of_none hparent).mp hinherits
    simp only [Structures.withInherited, hparent, List.nil_append]
    cases e.attributes with
    | nil => rfl
    | cons a as =>
      simp only [List.map_cons, Structures.withKeyColumn, Attribute.name_logical, List.head?_cons,
        Option.map_some]
      split
      · rfl
      · simp [Attribute.name_logical]
  | subclass =>
    obtain ⟨parent, hparent⟩ := Option.isSome_iff_exists.mp
      ((h.wellFormed.parent_isSome_iff he).mpr (by rw [hcase]; decide))
    have hnode : e.node.parent = some parent := hparent
    have hweak : e.node.isWeak = false := decide_eq_false hkind
    have halone : c.compiled.layout.isAlone e.node.path = true := hkeeps hcase
    have hne : inherited ≠ [] := h.inherited_ne_nil he hinherits (by rw [hnode]; rfl)
    obtain ⟨first, rest, rfl⟩ := List.exists_cons_of_ne_nil hne
    simp only [Structures.withInherited, hnode, hweak, halone, and_self, if_true,
      List.cons_append, Structures.renameFirst, List.map_cons, List.head?_cons]
    rfl

/-- Any other entity begins like its owner or parent. -/
theorem leadingName?_of_parent (he : e ∈ schema.entities) (hparent : e.parentPath = some p.path)
    (hfrom : e.kind = .weak ∨ ¬c.KeepsToItself e) :
    c.leadingName? e.path = c.leadingName? p.path := by
  obtain ⟨inherited, hinherits, hget⟩ := h.structure_entity he
  have hnode : e.node.parent = some p.path := hparent
  have hne := h.inherited_ne_nil he hinherits (by rw [hnode]; rfl)
  -- nothing is renamed, for a subclass of this kind does not stand alone
  have hplain : ¬(e.node.isWeak = false ∧ c.compiled.layout.isAlone e.node.path = true) := by
    rintro ⟨hweak, halone⟩
    rcases hfrom with hkind | hshares
    · exact of_decide_eq_false hweak hkind
    · exact hshares fun _ => halone
  obtain ⟨above, habove, hlead⟩ : ∃ above, c.compiled.structures.get? p.path = some above ∧
      inherited.head? = above.head? := by
    cases hinherits with
    | regular hnone => exact nomatch hnode.symm.trans hnone
    | weak hsome _ hs =>
      obtain rfl := Option.some.inj (hnode.symm.trans hsome)
      exact ⟨_, hs, rfl⟩
    | subclass hsome _ hs =>
      obtain rfl := Option.some.inj (hnode.symm.trans hsome)
      exact ⟨_, hs, rfl⟩
  obtain ⟨first, rest, rfl⟩ := List.exists_cons_of_ne_nil hne
  simp only [leadingName?, structureNames, hget, habove, Option.getD_some, List.head?_map,
    ← hlead, Structures.withInherited, hnode, if_neg hplain, List.cons_append, List.head?_cons]

/-- **The structure of an entity begins with the key of the entity that it goes by.** -/
theorem leadingName?_eq (he : e ∈ schema.entities) (hgoes : GoesBy schema c e q) :
    c.leadingName? e.path = q.leadingKey? s.naming := by
  induction hgoes with
  | self hkind hkeeps => exact h.leadingName?_of_keeps he hkind hkeeps
  | parent hfrom hp hparent _ ih =>
    rw [h.leadingName?_of_parent he hparent hfrom]
    exact ih hp

end Passes

/-! ## 2. What the columns of a table are called -/

/-- The names of columns that a grouping asks for: those of the keys of the entities that it names
and that keep to themselves or, where a name is repeated, of the keys of both sides; and those of
the attributes that it stores. -/
inductive Offers (schema : SchemaDecl) (naming : Naming) (c : Compilation) (g : Grouping) :
    String → Prop where
  | key {e : EntityDecl} {name : String} : g.repeated = [] → e ∈ schema.entities →
      c.KeepsToItself e → name ∈ g.names → Text.lower name = e.path →
        Offers schema naming c g (naming.keyColumn e.path)
  | firstSide {r : RelationshipDecl} : g.repeated ≠ [] → g.firstRelationship? schema = some r →
      Offers schema naming c g (r.sideNames naming).1
  | secondSide {r : RelationshipDecl} : g.repeated ≠ [] → g.firstRelationship? schema = some r →
      Offers schema naming c g (r.sideNames naming).2
  | stored {a : AttributeNode} : g.Stores schema.diagram naming a →
      Offers schema naming c g (Naming.columnName (Path.localPart a.path))

namespace Passes

variable (h : Passes schema groupings s c)

include h

/-- An entity has a key column where it is named exactly if it keeps to itself. -/
theorem isKeyed_iff (he : e ∈ schema.entities) :
    Blueprint.isKeyed ⟨schema.diagram, c.compiled.layout, s.naming⟩ e.node = true ↔
      c.KeepsToItself e := by
  refine ⟨fun hkeyed hkind => ?_, h.isKeyed_of_keeps he⟩
  have hsub : e.node.isSubclass = true := decide_eq_true hkind
  simp only [Blueprint.isKeyed, hsub, Bool.not_true, Bool.false_or, decide_eq_true_eq] at hkeyed
  obtain ⟨made, hget, halone⟩ := Option.bind_eq_some_iff.mp hkeyed
  have hpath : c.compiled.layout.get? e.path = some made := hget
  cases made with
  | weak alone grouping => cases halone
  | subclass placement grouping =>
    obtain rfl := Option.some.inj halone
    simp [Layout.isAlone, hpath, Decision.isAlone]

/-- The names of columns are those that the grouping asks for. -/
theorem offers_of_column {i : Nat} {g : Grouping} {t : Table}
    (htable : Blueprint.IsTable ⟨schema.diagram, c.compiled.layout, s.naming⟩ i g t)
    {column : Column} (hcolumn : column ∈ t.columns) : Offers schema s.naming c g column.name := by
  obtain ⟨nodes, keys, hnodes, hkeys, rfl, -⟩ := htable
  have hmem : ∀ {n : Node}, n ∈ nodes ↔ _ := Blueprint.mem_nodes_iff h.isIndexed hnodes
  rcases List.mem_append.mp hcolumn with hkey | hattribute
  · by_cases hrepeated : g.repeated = []
    · cases hkeys with
      | sides hname => cases hrepeated.symm.trans hname
      | entities =>
        obtain ⟨e, hentity, rfl⟩ := List.mem_map.mp (List.mem_reverse.mp hkey)
        obtain ⟨hentity, hkeyed⟩ := List.mem_filter.mp hentity
        obtain ⟨hnode, given, hgiven, hpath⟩ := hmem.mp (Node.mem_filterMap_entity?.mp hentity)
        obtain ⟨decl, hdecl, rfl⟩ := SchemaDecl.entity_mem_nodes_iff.mp hnode
        exact .key hrepeated hdecl ((h.isKeyed_iff hdecl).mp hkeyed) hgiven hpath
    · obtain ⟨r, hr, rfl, -⟩ := h.keys_of_repeated hnodes hkeys hrepeated
      simp only [List.mem_cons, List.not_mem_nil, or_false] at hkey
      rcases hkey with rfl | rfl
      · exact .firstSide hrepeated hr
      · exact .secondSide hrepeated hr
  · obtain ⟨a, ha, rfl⟩ := List.mem_map.mp hattribute
    obtain ⟨ha, hplain⟩ := List.mem_filter.mp ha
    obtain ⟨hnode, hname⟩ := hmem.mp (Node.mem_filterMap_attr?.mp ha)
    exact .stored ⟨hnode, by simpa using hplain, hname⟩

/-- What a grouping asks for is there. -/
theorem exists_column_of_offers {i : Nat} {g : Grouping} {t : Table}
    (htable : Blueprint.IsTable ⟨schema.diagram, c.compiled.layout, s.naming⟩ i g t) {name : String}
    (hoffers : Offers schema s.naming c g name) : ∃ column ∈ t.columns, column.name = name := by
  obtain ⟨nodes, keys, hnodes, hkeys, hcolumns, -⟩ := id htable
  cases hoffers with
  | @key e given hrepeated he hkeeps hgiven hpath =>
    cases hkeys with
    | sides hname => cases hrepeated.symm.trans hname
    | entities =>
      have hnode : .entity e.node ∈ nodes := (Blueprint.mem_nodes_iff h.isIndexed hnodes).mpr
        ⟨SchemaDecl.entity_mem_nodes he, given, hgiven, hpath⟩
      refine ⟨.key (s.naming.keyColumn e.path) e.path, ?_, rfl⟩
      rw [hcolumns]
      refine List.mem_append_left _ (List.mem_reverse.mpr (List.mem_map.mpr ⟨e.node, ?_, rfl⟩))
      exact List.mem_filter.mpr
        ⟨Node.mem_filterMap_entity?.mpr hnode, (h.isKeyed_iff he).mpr hkeeps⟩
  | firstSide hrepeated hr | secondSide hrepeated hr =>
    obtain ⟨r', hr', rfl, -⟩ := h.keys_of_repeated hnodes hkeys hrepeated
    obtain rfl := Option.some.inj (hr.symm.trans hr')
    rw [hcolumns]
    simp [Column.key]
  | stored hstores =>
    obtain ⟨only, hcolumn⟩ := htable.columnOf_mem h.isIndexed hstores
    exact ⟨_, hcolumn, rfl⟩

/-- **A table has a column of some name exactly if its grouping asks for it.** -/
theorem exists_column_iff {t : Table} (ht : t ∈ c.schema.tables) {g : Grouping}
    (hg : groupings[t.grouping]? = some g) {name : String} :
    (∃ column ∈ t.columns, column.name = name) ↔ Offers schema s.naming c g name := by
  obtain ⟨g', hg', htable⟩ := synthesize_of_mem h.tables ht
  obtain rfl := Option.some.inj (hg.symm.trans hg')
  refine ⟨?_, h.exists_column_of_offers htable⟩
  rintro ⟨column, hcolumn, rfl⟩
  exact h.offers_of_column htable hcolumn

end Passes

/-! ## 3. Weak entities -/

/-- How the structure of a weak entity `e` begins that goes by the key of `q`, and which of its
tables have a column of that name. -/
structure LeadsWithKey (schema : SchemaDecl) (groupings : List Grouping) (naming : Naming)
    (c : Compilation) (e q : EntityDecl) (key : Attribute) : Prop where
  /-- it begins with a key, and its own attributes follow -/
  leads : c.compiled.structures.get? e.path = some (key :: e.attributes.map Attribute.logical)
  /-- the key is called after `q` -/
  name : q.leadingKey? naming = some key.name
  /-- some grouping holds the entity together with its owner -/
  settled : ∃ alone i g, c.compiled.layout.get? e.path = some (.weak alone i) ∧
    groupings[i]? = some g ∧ e.Qualifies g
  /-- the tables that have a column of that name are those whose groupings ask for it -/
  column : ∀ t ∈ c.compiled.ownership.tablesIn c.schema e.path, ∃ g,
    groupings[t.grouping]? = some g ∧ g.contains e.path = true ∧
      ((∃ column ∈ t.columns, column.name = key.name) ↔ Offers schema naming c g key.name)
  /-- so has, if it is the key column of `q`, the table of every grouping that repeats no name and
  holds `q`, the entity and one of its attributes that is no key -/
  held : key.name = naming.keyColumn q.path → ∀ g ∈ groupings, g.repeated = [] →
    g.contains q.path = true → g.contains e.path = true →
      (∃ a ∈ e.attributeNodes, naming.isKeyName a.path = false ∧ g.contains a.path = true) →
        ∃ t ∈ c.compiled.ownership.tablesIn c.schema e.path, groupings[t.grouping]? = some g ∧
          .key key.name q.path ∈ t.columns
  /-- where there is a column of that name, the query does not fail for want of it -/
  answered : ∀ t ∈ c.compiled.ownership.tablesIn c.schema e.path, ∀ column ∈ t.columns,
    column.name = key.name → ∀ node,
      c.compiled.queryFor c.schema e.name ≠ .error (.noColumn node key.name)
  /-- where there are tables but none of their columns provides the key, it does -/
  unanswered : c.compiled.ownership.tablesIn c.schema e.path ≠ [] →
    ¬Reconstruction.Provides (c.compiled.ownership.tablesIn c.schema e.path) key →
      c.compiled.queryFor c.schema e.name = .error (.noColumn e.path key.name)

namespace Passes

variable (h : Passes schema groupings s c) (he : e ∈ schema.entities) (hweak : e.kind = .weak)

include h he hweak

/-- The structure of a weak entity is a key and its own attributes. -/
theorem structure_weak : ∃ key : Attribute, c.compiled.structures.get? e.path =
    some (key :: e.attributes.map Attribute.logical) := by
  obtain ⟨inherited, hinherits, hget⟩ := h.structure_entity he
  have hnode : e.node.isWeak = true := decide_eq_true hweak
  obtain ⟨parent, hparent⟩ := Option.isSome_iff_exists.mp
    ((h.wellFormed.parent_isSome_iff he).mpr (by rw [hweak]; decide))
  rw [← EntityDecl.parent_node] at hparent
  obtain ⟨key, -, -, rfl⟩ := (Structures.Inherits.iff_of_weak hparent hnode).mp hinherits
  refine ⟨key, hget.trans ?_⟩
  simp [Structures.withInherited, hparent, hnode]

/-- A weak entity is placed by a grouping that qualifies. -/
theorem exists_qualifies_weak : ∃ alone i g, c.compiled.layout.get? e.path = some (.weak alone i) ∧
    groupings[i]? = some g ∧ e.Qualifies g := by
  have hdecision := Diagram.classify_entity h.layout h.isIndexed (SchemaDecl.entity_mem_nodes he)
  obtain ⟨alone, i, parent, own, g, hget, hparent, hown, hg, hqualifies⟩ :=
    Diagram.exists_grouping_of_weak hdecision hweak
  exact ⟨alone, i, g, hget, hg, (h.wellFormed.qualifies_iff he hparent hown g).mp hqualifies⟩

end Passes

/-- **When the key of the owner has a column** among the tables of a weak entity. -/
theorem leadsWithKey_weak (h : ofDecl schema groupings s = .ok c) (he : e ∈ schema.entities)
    (hweak : e.kind = .weak) : ∃ q ∈ schema.entities, GoesBy schema c e q ∧
      ∃ key, LeadsWithKey schema groupings s.naming c e q key := by
  have hpasses := ofDecl_eq_ok.mp h
  obtain ⟨q, hq, hgoes⟩ := hpasses.exists_goesBy e he
  obtain ⟨key, hget⟩ := hpasses.structure_weak he hweak
  have hkeeps := keepsToItself_weak (c := c) hweak
  have hquery := hpasses.queryFor_eq e.lower_name hget
  refine ⟨q, hq, hgoes, key, hget, ?_, hpasses.exists_qualifies_weak he hweak, ?_, ?_, ?_, ?_⟩
  · rw [← hpasses.leadingName?_eq he hgoes, leadingName?, structureNames, hget]
    rfl
  · intro t ht
    obtain ⟨g, hg, hcontains, -⟩ := hpasses.exists_grouping he hkeeps ht
    exact ⟨g, hg, hcontains, hpasses.exists_column_iff (Ownership.mem_tablesIn.mp ht).1 hg⟩
  · rintro hname g hg hrepeated hholds hcontains ⟨a, ha, hplain, hheld⟩
    obtain ⟨t, ht, hgrouping, htable⟩ := hpasses.exists_table hg
    have hnode := SchemaDecl.attribute_mem_nodes he a ha
    obtain ⟨only, hcolumn⟩ := htable.columnOf_mem hpasses.isIndexed
      ⟨hnode, hplain, a.path, List.contains_iff_mem.mp hheld, hpasses.isIndexed.lower_path hnode⟩
    refine ⟨t, hpasses.mem_tablesIn_of_column he ht hgrouping hcontains ha hcolumn rfl, hgrouping,
      ?_⟩
    rw [hname]
    exact htable.key_mem hpasses.isIndexed (SchemaDecl.entity_mem_nodes hq) hholds
      (hpasses.isKeyed_of_keeps hq hgoes.keeps.2) hrepeated
  · intro t ht column hcolumn hname node herror
    rw [hquery, Reconstruction.query_eq_error] at herror
    rcases herror with ⟨-, herror⟩ | ⟨-, u, -, herror⟩ | ⟨-, _, a, _, -, -, hnot, herror⟩
    · cases herror
    · cases herror
    · obtain ⟨-, heq⟩ := ReconstructionError.noColumn.inj herror
      exact hnot ⟨t, ht, column, hcolumn, .inl (hname.trans heq)⟩
  · intro htables hnot
    rw [hquery, Reconstruction.query_eq_error]
    refine .inr (.inr ⟨⟨htables, fun _ t ht => ?_⟩, [], key, _, rfl, ?_, hnot, rfl⟩)
    · obtain ⟨found, hfound⟩ := hpasses.exists_joinKey he hkeeps ht
      rw [hfound]
      rfl
    · exact fun b hb => absurd hb List.not_mem_nil

end Compilation

/-! ## 4. Examples -/

/-- A chapter of a thesis. -/
def EntityDecl.chapter : EntityDecl :=
  ⟨"Chapter", .weak, some "Thesis", [⟨"page", .integer, false, true, false, []⟩]⟩

/-- Persons, some of them students who write theses, their guests, who carry passes, and desks in
rooms; persons visit each other. -/
def SchemaDecl.campus : SchemaDecl where
  entities := [
    ⟨"Person", .regular, none, [⟨"person_id", .integer, true, false, false, []⟩,
      ⟨"name", .varchar, false, false, false, []⟩]⟩,
    ⟨"Student", .subclass, some "Person", [⟨"year", .integer, false, false, false, []⟩]⟩,
    ⟨"Thesis", .weak, some "Student", [⟨"topic", .varchar, false, true, false, []⟩]⟩,
    .chapter,
    ⟨"Guest", .weak, some "Person", [⟨"guest_id", .integer, false, true, false, []⟩,
      ⟨"badge", .varchar, false, false, false, []⟩]⟩,
    ⟨"Pass", .weak, some "Person", [⟨"color", .varchar, false, true, false, []⟩]⟩,
    ⟨"Room", .regular, none, [⟨"label", .varchar, false, false, false, []⟩]⟩,
    ⟨"Desk", .weak, some "Room", [⟨"position", .integer, false, true, false, []⟩]⟩]
  relationships := [⟨"Visits", ⟨"Person", some "host"⟩, ⟨"Person", some "visitor"⟩, []⟩]

/-- Theses and their chapters are stored with the keys of their authors, who are persons. -/
def Grouping.ofAuthors : List (List String) := [
  ["Person", "Person.name", "Student", "Student.year"],
  ["Thesis", "Student", "Person", "Thesis.topic"], ["Chapter", "Thesis", "Person", "Chapter.page"],
  ["Guest", "Person", "Guest.badge"], ["Room", "Room.label", "Desk", "Desk.position"],
  ["Pass", "Person", "Pass.color"], ["Visits", "Person", "Person"]]

/-- No weak entity is stored with what its structure begins with: there are no keys of students,
theses do not go by their own, the grouping with guests and persons stores nothing but keys, rooms
have no keys to name, and passes are stored with those who visit each other. -/
def Grouping.ofCampus : List (List String) := [
  ["Person", "Person.name", "Student", "Student.year"], ["Thesis", "Student", "Thesis.topic"],
  ["Chapter", "Thesis", "Chapter.page"], ["Guest", "Person", "Guest.guest_id"],
  ["Guest", "Guest.badge"], ["Room", "Room.label"], ["Desk", "Room", "Desk.position"],
  ["Visits", "Person", "Person", "Pass", "Pass.color"]]

namespace Compilation

/-- Chapters go by the keys of persons, through their theses and the students who wrote these. -/
theorem leadsWithKey_chapter : ∃ c q key,
    ofDecl .campus (Grouping.ofAuthors.map .ofNames) .standard = .ok c ∧
      GoesBy .campus c .chapter q ∧ q.path = "person" ∧ key.name = "person_id" ∧
      LeadsWithKey .campus (Grouping.ofAuthors.map .ofNames) Settings.standard.naming c .chapter q
        key ∧
      (∃ t ∈ c.compiled.ownership.tablesIn c.schema "chapter",
        .key "person_id" "person" ∈ t.columns) ∧
      ∀ node, c.compiled.queryFor c.schema "Chapter" ≠ .error (.noColumn node "person_id") := by
  have heval : (ofDecl .campus (Grouping.ofAuthors.map .ofNames) .standard).toOption.any (fun c =>
      decide (c.leadingName? "chapter" = some "person_id")) = true := by
    decide +kernel
  obtain ⟨c, hc, hleads⟩ := exists_of_any heval
  have hpath : EntityDecl.chapter.path = "chapter" := by decide +kernel
  obtain ⟨q, hq, hgoes, key, hkey⟩ := leadsWithKey_weak hc
    (show .chapter ∈ SchemaDecl.campus.entities by decide +kernel) rfl
  have hname : key.name = "person_id" := by
    have hleads : c.leadingName? "chapter" = some "person_id" := of_decide_eq_true hleads
    rw [leadingName?, structureNames, ← hpath, hkey.leads] at hleads
    exact Option.some.inj hleads
  have hperson : q.path = "person" := by
    have hall : ∀ q ∈ SchemaDecl.campus.entities,
        q.leadingKey? Settings.standard.naming = some "person_id" → q.path = "person" := by
      decide +kernel
    exact hall q hq (hname ▸ hkey.name)
  obtain ⟨t, ht, -, hcolumn⟩ := hkey.held (by rw [hname, hperson]; decide +kernel)
    (.ofNames ["Chapter", "Thesis", "Person", "Chapter.page"]) (by decide +kernel)
    (by decide +kernel) (by rw [hperson]; decide +kernel) (by decide +kernel) (by decide +kernel)
  refine ⟨c, q, key, hc, hgoes, hperson, hname, hkey, ⟨t, hpath ▸ ht, ?_⟩, fun node => ?_⟩
  · rw [hname, hperson] at hcolumn
    exact hcolumn
  · rw [← hname]
    exact hkey.answered t ht _ hcolumn rfl node

/-- The entity at a path owns tables, but no column of theirs has the name by which its structure
begins, and there is no query for want of such a column. -/
def LacksLeadingColumn (c : Compilation) (path name : String) : Prop :=
  c.compiled.ownership.tablesIn c.schema path ≠ [] ∧ c.leadingName? path = some name ∧
    (∀ t ∈ c.compiled.ownership.tablesIn c.schema path, ∀ column ∈ t.columns,
      column.name ≠ name) ∧
    c.compiled.queryFor c.schema path = .error (.noColumn path name)

instance (c : Compilation) (path name : String) : Decidable (c.LacksLeadingColumn path name) :=
  inferInstanceAs (Decidable (_ ∧ _ ∧ _ ∧ _))

/-- **The key of the owner need not have a column**, whether the owner is a subclass, weak or
regular, and whether its structure begins with a key or not. -/
theorem lacksLeadingColumn_campus : ∃ c,
    ofDecl .campus (Grouping.ofCampus.map .ofNames) .standard = .ok c ∧
      ∀ p ∈ [("thesis", "person_id"), ("chapter", "person_id"), ("guest", "person_id"),
          ("pass", "person_id"), ("desk", "label")],
        (∃ e ∈ SchemaDecl.campus.entities, e.path = p.1 ∧ e.kind = .weak) ∧
          c.LacksLeadingColumn p.1 p.2 := by
  have heval : (ofDecl .campus (Grouping.ofCampus.map .ofNames) .standard).toOption.any
      (fun c => decide (∀ p ∈ [("thesis", "person_id"), ("chapter", "person_id"),
          ("guest", "person_id"), ("pass", "person_id"), ("desk", "label")],
        (∃ e ∈ SchemaDecl.campus.entities, e.path = p.1 ∧ e.kind = .weak) ∧
          c.LacksLeadingColumn p.1 p.2)) = true := by
    decide +kernel
  obtain ⟨c, hc, heval⟩ := exists_of_any heval
  exact ⟨c, hc, of_decide_eq_true heval⟩

end Compilation

end EntityLayout

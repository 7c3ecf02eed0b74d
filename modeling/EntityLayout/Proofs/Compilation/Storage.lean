/-
# Where entities and relationships are stored

A table stores an entity directly if its grouping names the entity and a column that is no key
holds one of its attributes.  A subclass that does not keep to itself is also stored wherever its
parent is, and so are the subclasses below it.

* `SchemaDecl.HasPlainKeys`: no key column is called like an attribute's path.
* `Compilation.IsDirect`: the tables that store an entity directly.
* `Compilation.DrawsOn`: the entities whose tables an entity has, itself and a chain of parents.
* `Compilation.hasStorage_ofDecl`: **the tables of every entity and of every relationship.**
-/
import EntityLayout.Proofs.Compilation.Joins
import EntityLayout.Proofs.Diagram.Consistency
import Mathlib.Data.List.Induction

namespace EntityLayout

/-! ## 1. Paths of attributes and names of keys -/

/-- The paths of attributes have dots. -/
theorem Attribute.dot_mem_of_mem_nodes {n : AttributeNode} : ∀ {a : Attribute}
    {above owner : String} {parent : Option String}, Text.lower above = above →
      n ∈ a.nodes above owner parent → '.' ∈ n.path.toList := by
  intro a
  induction a using Attribute.induction with
  | step a ih =>
    intro above owner parent habove hn
    rcases mem_nodes_iff.mp hn with rfl | ⟨b, hb, hn⟩
    · show '.' ∈ (Path.below above a.name).toList
      rw [Path.toList_below habove]
      exact List.mem_append_right _ List.mem_cons_self
    · exact ih b (shownParts_subset hb) (lower_pathBelow _ _) hn

theorem EntityDecl.dot_mem_of_mem_attributeNodes {e : EntityDecl} {n : AttributeNode}
    (h : n ∈ e.attributeNodes) : '.' ∈ n.path.toList := by
  rw [attributeNodes, Attribute.nodesOf_eq_flatMap] at h
  obtain ⟨a, -, hn⟩ := List.mem_flatMap.mp h
  exact Attribute.dot_mem_of_mem_nodes (Text.lower_lower _) hn

/-- Nothing that key columns are called after has a dot: neither the entities, nor the roles, nor
the modifier. -/
structure SchemaDecl.HasPlainKeys (schema : SchemaDecl) (naming : Naming) : Prop where
  entities : ∀ e ∈ schema.entities, '.' ∉ e.name.toList
  roles : ∀ r ∈ schema.relationships, ∀ side ∈ [r.first, r.second], ∀ role ∈ side.role,
    '.' ∉ role.toList
  modifier : '.' ∉ naming.keyModifier.toList

theorem Text.dot_notMem_lower {s : String} (h : '.' ∉ s.toList) : '.' ∉ (lower s).toList := by
  rw [toList_lower]
  exact dot_notMem_lowerChars h

namespace Naming

variable {naming : Naming}

theorem dot_notMem_keyColumn (h : '.' ∉ naming.keyModifier.toList) {stem : String}
    (hstem : '.' ∉ stem.toList) : '.' ∉ (naming.keyColumn stem).toList := by
  simp only [keyColumn, keySuffix, String.toList_append, List.mem_append, not_or]
  exact ⟨hstem, ⟨by decide, h⟩, by decide⟩

/-- Cutting an ending off leaves only characters that were there. -/
theorem dot_notMem_withoutSuffix {suffix role stem : String} (hrole : '.' ∉ role.toList)
    (h : withoutSuffix? suffix role = some stem) : '.' ∉ stem.toList := by
  unfold withoutSuffix? at h
  split at h
  · obtain rfl := Option.some.inj h
    rw [String.toList_ofList]
    exact fun hdot => hrole (List.mem_of_mem_take hdot)
  · exact nomatch h

theorem dot_notMem_roleKeyColumn (h : '.' ∉ naming.keyModifier.toList) {role : String}
    (hrole : '.' ∉ role.toList) : '.' ∉ (naming.roleKeyColumn role).toList := by
  refine dot_notMem_keyColumn h ?_
  have hlower := Text.dot_notMem_lower hrole
  cases hown : withoutSuffix? naming.keySuffix (Text.lower role) with
  | some stem => exact dot_notMem_withoutSuffix hlower hown
  | none =>
    cases hplain : withoutSuffix? "_id" (Text.lower role) with
    | some stem => simpa [hplain] using dot_notMem_withoutSuffix hlower hplain
    | none => simpa [hplain] using hlower

end Naming

theorem SchemaDecl.HasPlainKeys.dot_notMem_sideNames {schema : SchemaDecl} {naming : Naming}
    (h : schema.HasPlainKeys naming) {r : RelationshipDecl} (hr : r ∈ schema.relationships)
    {e₁ e₂ : EntityDecl} (he₁ : e₁ ∈ schema.entities) (he₂ : e₂ ∈ schema.entities) :
    '.' ∉ (Structures.sideNames naming r.node e₁.node e₂.node).1.toList ∧
      '.' ∉ (Structures.sideNames naming r.node e₁.node e₂.node).2.toList := by
  have hentity : ∀ e ∈ schema.entities, '.' ∉ (naming.keyColumn e.path).toList := fun e he =>
    Naming.dot_notMem_keyColumn h.modifier (Text.dot_notMem_lower (h.entities e he))
  have hrole : ∀ side ∈ [r.first, r.second], ∀ role ∈ side.role,
      '.' ∉ (naming.roleKeyColumn role).toList := fun side hside role hmem =>
    Naming.dot_notMem_roleKeyColumn h.modifier (h.roles r hr side hside role hmem)
  have hroles : r.node.roles = r.roles := rfl
  rw [Structures.sideNames, hroles, RelationshipDecl.roles]
  cases hfirst : r.first.role with
  | none => exact ⟨hentity e₁ he₁, hentity e₂ he₂⟩
  | some role₁ =>
    cases hsecond : r.second.role with
    | none => exact ⟨hentity e₁ he₁, hentity e₂ he₂⟩
    | some role₂ =>
      exact ⟨hrole r.first (by simp) role₁ hfirst, hrole r.second (by simp) role₂ hsecond⟩

namespace Blueprint

variable {schema : SchemaDecl} {layout : Layout} {naming : Naming} {index : Nat} {g : Grouping}

/-- **No key column has a dot in its source**, so none is taken for that of an attribute. -/
theorem HasKeys.dot_notMem_source (hplain : schema.HasPlainKeys naming) (hw : schema.IsWellFormed)
    {nodes : List Node} {keys : List Column}
    (hnodes : nodesOf ⟨schema.diagram, layout, naming⟩ g = .ok nodes)
    (h : HasKeys ⟨schema.diagram, layout, naming⟩ index g nodes keys) :
    ∀ c ∈ keys, '.' ∉ c.source.toList := by
  have hentity : ∀ e ∈ schema.entities, '.' ∉ (naming.keyColumn e.path).toList := fun e he =>
    Naming.dot_notMem_keyColumn hplain.modifier (Text.dot_notMem_lower (hplain.entities e he))
  intro c hc
  cases h with
  | entities =>
    obtain ⟨e, he, rfl⟩ := List.mem_map.mp (List.mem_reverse.mp hc)
    have hmem := Node.mem_filterMap_entity?.mp (List.mem_filter.mp he).1
    obtain ⟨decl, hdecl, rfl⟩ :=
      SchemaDecl.entity_mem_nodes_iff.mp ((mem_nodes_iff hw.isIndexed hnodes).mp hmem).1
    exact hentity decl hdecl
  | sides _ hsides =>
    obtain ⟨r, e₁, e₂, hr, hends, -, rfl⟩ := sideKeys_eq_ok hsides
    obtain ⟨decl, hdecl, rfl⟩ := SchemaDecl.relationship_mem_nodes_iff.mp
      (relationship_mem_of_findSome? hw.isIndexed hnodes hr)
    obtain ⟨d₁, hd₁, d₂, hd₂, hfound, -, -⟩ := hw.exists_ends hdecl
    obtain ⟨rfl, rfl⟩ := Prod.mk.inj (Except.ok.inj (hends.symm.trans hfound))
    have hnames := hplain.dot_notMem_sideNames hdecl hd₁ hd₂
    simp only [List.mem_cons, List.not_mem_nil, or_false] at hc
    rcases hc with rfl | rfl
    · exact hnames.1
    · exact hnames.2

/-- **A table stores an attribute in a column that is no key**, wherever some column has the
attribute for its source. -/
theorem IsTable.hasSource_iff (hplain : schema.HasPlainKeys naming) (hw : schema.IsWellFormed)
    {t : Table} (h : IsTable ⟨schema.diagram, layout, naming⟩ index g t) {path : String}
    (hpath : '.' ∈ path.toList) : t.hasSource path = true ↔
      ∃ c ∈ t.columns, c.form.isKey = false ∧ c.source = path := by
  rw [Table.hasSource, List.any_eq_true]
  refine exists_congr fun c => and_congr_right fun hc => ?_
  rw [decide_eq_true_eq]
  refine ⟨fun hsource => ⟨?_, hsource⟩, fun hsource => hsource.2⟩
  obtain ⟨nodes, keys, hnodes, hkeys, rfl, -⟩ := h
  rcases List.mem_append.mp hc with hc | hc
  · exact absurd (hsource ▸ hpath) (hkeys.dot_notMem_source hplain hw hnodes c hc)
  · obtain ⟨a, -, rfl⟩ := List.mem_map.mp hc
    exact isKey_columnForm _ a

end Blueprint

/-! ## 2. Lists of tables -/

/-- Some names list the tables of a schema that have a property, each once and in the order of
their groupings. -/
def PhysicalSchema.Lists (schema : PhysicalSchema) (p : Table → Prop) (names : List String) :
    Prop :=
  names.Nodup ∧ ∃ ts : List Table, names = ts.map Table.name ∧
    (ts.Pairwise fun t u => t.grouping < u.grouping) ∧ ∀ t, t ∈ ts ↔ t ∈ schema.tables ∧ p t

theorem PhysicalSchema.Lists.congr {schema : PhysicalSchema} {p q : Table → Prop}
    {names : List String} (h : schema.Lists p names) (hpq : ∀ t ∈ schema.tables, p t ↔ q t) :
    schema.Lists q names := by
  obtain ⟨hnodup, ts, hnames, hsorted, hmem⟩ := h
  refine ⟨hnodup, ts, hnames, hsorted, fun t => (hmem t).trans ?_⟩
  exact and_congr_right fun ht => hpq t ht

/-! ## 3. What an entity has from its parent -/

/-- What holds of an entity if it holds of its parent holds of every entity, because parents stand
before the entities that name them. -/
theorem SchemaDecl.IsWellFormed.entity_induction {schema : SchemaDecl} (h : schema.IsWellFormed)
    {P : EntityDecl → Prop} (step : ∀ e ∈ schema.entities, (e.kind ≠ .regular →
      ∃ p ∈ schema.entities, e.parentPath = some p.path ∧ P p) → P e) :
    ∀ e ∈ schema.entities, P e := by
  have hfront : ∀ front back, schema.entities = front ++ back → ∀ e ∈ front, P e := by
    intro front
    induction front using List.reverseRecOn with
    | nil => exact fun _ _ e he => absurd he List.not_mem_nil
    | append_singleton front e ih =>
      intro back hsplit
      rw [List.append_assoc, List.singleton_append] at hsplit
      have hbefore := ih (e :: back) hsplit
      refine List.forall_mem_append.mpr ⟨hbefore, List.forall_mem_singleton.mpr ?_⟩
      refine step e (by rw [hsplit]; simp) fun hkind => ?_
      obtain ⟨p, hp, hpath⟩ := h.parents front e back hsplit hkind
      exact ⟨p, by rw [hsplit]; exact List.mem_append_left _ hp, hpath, hbefore p hp⟩
  exact hfront schema.entities [] (List.append_nil _).symm

namespace Compilation

variable {schema : SchemaDecl} {groupings : List Grouping} {s : Settings} {c : Compilation}
  {e : EntityDecl} {t : Table}

/-- The grouping of a table names an entity, and a column that is no key holds one of the entity's
attributes or of their parts. -/
def IsDirect (groupings : List Grouping) (e : EntityDecl) (t : Table) : Prop :=
  (∃ g, groupings[t.grouping]? = some g ∧ g.contains e.path = true) ∧
    ∃ c ∈ t.columns, c.form.isKey = false ∧ ∃ a ∈ e.attributeNodes, c.source = a.path

/-- The entities whose tables an entity has: itself, and those whose tables its parent has unless
it keeps to itself. -/
inductive DrawsOn (schema : SchemaDecl) (c : Compilation) : EntityDecl → EntityDecl → Prop where
  | self {e : EntityDecl} : DrawsOn schema c e e
  | parent {e p q : EntityDecl} : ¬c.KeepsToItself e → p ∈ schema.entities →
      e.parentPath = some p.path → DrawsOn schema c p q → DrawsOn schema c e q

namespace Passes

variable (h : Passes schema groupings s c)

include h

/-- An entity owns the tables that store it, if keys are not called like attributes. -/
theorem ownsDirectly_iff (hplain : schema.HasPlainKeys s.naming) (ht : t ∈ c.schema.tables) :
    Ownership.ownsDirectly groupings e.node t = true ↔ IsDirect groupings e t := by
  obtain ⟨g, -, htable⟩ := synthesize_of_mem h.tables ht
  rw [Ownership.ownsDirectly_iff]
  refine and_congr_right fun _ => ?_
  have hsource : ∀ a ∈ e.attributeNodes, t.hasSource a.path = true ↔ _ := fun a ha =>
    htable.hasSource_iff hplain h.wellFormed (EntityDecl.dot_mem_of_mem_attributeNodes ha)
  constructor
  · rintro ⟨p, hp, hhas⟩
    obtain ⟨a, ha, rfl⟩ := List.mem_map.mp hp
    obtain ⟨c, hc, hkey, heq⟩ := (hsource a ha).mp hhas
    exact ⟨c, hc, hkey, a, ha, heq⟩
  · rintro ⟨c, hc, hkey, a, ha, heq⟩
    exact ⟨a.path, List.mem_map_of_mem ha, (hsource a ha).mpr ⟨c, hc, hkey, heq⟩⟩

/-- An entity that does not keep to itself has the tables of its parent. -/
theorem inherited_of_shares (he : e ∈ schema.entities) (hshares : ¬c.KeepsToItself e) :
    ∃ p ∈ schema.entities, e.parentPath = some p.path ∧
      Ownership.inherited c.compiled.layout c.compiled.ownership e.node =
        c.compiled.ownership.tablesOf p.path := by
  obtain ⟨hkind, halone⟩ := Classical.not_imp.mp hshares
  have hsub : e.node.isSubclass = true := decide_eq_true hkind
  obtain ⟨front, back, hsplit⟩ := List.append_of_mem he
  obtain ⟨p, hp, hpath⟩ := h.wellFormed.parents front e back hsplit (by rw [hkind]; decide)
  refine ⟨p, by rw [hsplit]; exact List.mem_append_left _ hp, hpath, ?_⟩
  obtain ⟨placement, grouping, hget⟩ := Diagram.decision_subclass
    (Diagram.classify_entity h.layout h.isIndexed (SchemaDecl.entity_mem_nodes he)) hsub
  have hwith : c.compiled.layout.sharesWithParent e.path = true := by
    rw [Layout.isAlone, ← e.path_node, hget] at halone
    rw [Layout.sharesWithParent, ← e.path_node, hget]
    simpa using halone
  rw [Ownership.inherited, EntityDecl.parent_node, hpath]
  exact if_pos (Bool.and_eq_true_iff.mpr ⟨hsub, hwith⟩)

/-- The tables of an entity are listed: those it owns directly, and those from its parent. -/
theorem lists_tablesOf (he : e ∈ schema.entities) : c.schema.Lists
    (fun t => Ownership.ownsDirectly groupings e.node t = true ∨
      t.name ∈ Ownership.inherited c.compiled.layout c.compiled.ownership e.node)
    (c.compiled.ownership.tablesOf e.path) := by
  rw [h.tablesOf_entity he, Ownership.entityTables]
  refine ⟨(List.filter_sublist.map Table.name).nodup (synthesize_nodup h.tables), _, rfl,
    (synthesize_sorted h.tables).filter _, fun t => ?_⟩
  rw [List.mem_filter, Bool.or_eq_true, List.contains_iff_mem]

variable (hplain : schema.HasPlainKeys s.naming)

include hplain

/-- **The tables of an entity** store it directly or are those of its parent. -/
theorem mem_tablesOf (he : e ∈ schema.entities) (ht : t ∈ c.schema.tables) :
    t.name ∈ c.compiled.ownership.tablesOf e.path ↔ IsDirect groupings e t ∨
      t.name ∈ Ownership.inherited c.compiled.layout c.compiled.ownership e.node := by
  have hmem := h.mem_tablesIn_entity he (t := t)
  rw [Ownership.mem_tablesIn, and_congr_right_iff] at hmem
  rw [hmem ht, h.ownsDirectly_iff hplain ht]

theorem mem_tablesOf_of_drawsOn (ht : t ∈ c.schema.tables) {e q : EntityDecl}
    (hdraws : DrawsOn schema c e q) (he : e ∈ schema.entities) (hdirect : IsDirect groupings q t) :
    t.name ∈ c.compiled.ownership.tablesOf e.path := by
  induction hdraws with
  | self => exact (h.mem_tablesOf hplain he ht).mpr (.inl hdirect)
  | parent hshares hp hpath _ ih =>
    obtain ⟨p, -, hparent, hinherited⟩ := h.inherited_of_shares he hshares
    refine (h.mem_tablesOf hplain he ht).mpr (.inr ?_)
    rw [hinherited, ← Option.some.inj (hpath.symm.trans hparent)]
    exact ih hp hdirect

/-- **Every table of an entity stores it or an entity whose tables it has**, up a chain of
subclasses that do not keep to themselves. -/
theorem exists_drawsOn : ∀ e ∈ schema.entities, ∀ t ∈ c.schema.tables,
    t.name ∈ c.compiled.ownership.tablesOf e.path →
      ∃ q, DrawsOn schema c e q ∧ IsDirect groupings q t := by
  refine h.wellFormed.entity_induction fun e he ih t ht hmem => ?_
  rcases (h.mem_tablesOf hplain he ht).mp hmem with hdirect | hinherited
  · exact ⟨e, .self, hdirect⟩
  · have hshares : ¬c.KeepsToItself e := by
      intro hkeeps
      rw [hkeeps.inherited_eq_nil] at hinherited
      exact List.not_mem_nil hinherited
    obtain ⟨p, -, hparent, heq⟩ := h.inherited_of_shares he hshares
    have hkind := (Classical.not_imp.mp hshares).1
    obtain ⟨p', hp', hparent', hup⟩ := ih (by rw [hkind]; decide)
    rw [heq, Option.some.inj (hparent.symm.trans hparent')] at hinherited
    obtain ⟨q, hdraws, hdirect⟩ := hup t ht hinherited
    exact ⟨q, .parent hshares hp' hparent' hdraws, hdirect⟩

end Passes

/-! ## 4. Storage -/

/-- Where the entities and relationships of a schema are stored. -/
structure HasStorage (schema : SchemaDecl) (groupings : List Grouping) (c : Compilation) :
    Prop where
  /-- there is one table to a grouping, in the order of the groupings -/
  numbered : c.schema.tables.map Table.grouping = List.range groupings.length
  /-- an entity that keeps to itself has the tables that store it -/
  keeps : ∀ e ∈ schema.entities, c.KeepsToItself e →
    c.schema.Lists (IsDirect groupings e) (c.compiled.ownership.tablesOf e.path)
  /-- any other subclass also has the tables of its parent -/
  shares : ∀ e ∈ schema.entities, ¬c.KeepsToItself e → ∃ p ∈ schema.entities,
    e.parentPath = some p.path ∧
      c.schema.Lists
        (fun t => IsDirect groupings e t ∨ t.name ∈ c.compiled.ownership.tablesOf p.path)
        (c.compiled.ownership.tablesOf e.path)
  /-- so it has the tables that store some entity of a chain of parents, up to the first one that
  keeps to itself -/
  chain : ∀ e ∈ schema.entities,
    c.schema.Lists (fun t => ∃ q, DrawsOn schema c e q ∧ IsDirect groupings q t)
      (c.compiled.ownership.tablesOf e.path)
  /-- a relationship has one table, whose grouping is the only one to name it -/
  relationships : ∀ r ∈ schema.relationships, ∃ t ∈ c.schema.tables,
    c.compiled.ownership.tablesOf r.path = [t.name] ∧
      ∀ i g, groupings[i]? = some g → (g.contains r.path = true ↔ i = t.grouping)

/-- **Entities are stored where their attributes are, and subclasses where their parents are as
well**; no table is an entity's for its keys alone. -/
theorem hasStorage_ofDecl (h : ofDecl schema groupings s = .ok c)
    (hplain : schema.HasPlainKeys s.naming) : HasStorage schema groupings c := by
  have hpasses := ofDecl_eq_ok.mp h
  have hlists : ∀ e ∈ schema.entities, c.schema.Lists
      (fun t => t.name ∈ c.compiled.ownership.tablesOf e.path)
      (c.compiled.ownership.tablesOf e.path) := fun e he =>
    (hpasses.lists_tablesOf he).congr fun t ht => by
      rw [hpasses.mem_tablesOf hplain he ht, hpasses.ownsDirectly_iff hplain ht]
  refine {
    numbered := by rw [synthesize_groupings hpasses.tables, List.range_eq_range']
    keeps := fun e he hkeeps => (hlists e he).congr fun t ht => ?_
    shares := fun e he hshares => ?_
    chain := fun e he => (hlists e he).congr fun t ht => ⟨hpasses.exists_drawsOn hplain e he t ht,
      fun ⟨q, hdraws, hdirect⟩ => hpasses.mem_tablesOf_of_drawsOn hplain ht hdraws he hdirect⟩
    relationships := fun r hr => hpasses.exists_tablesOf_relationship hr }
  · rw [hpasses.mem_tablesOf hplain he ht, hkeeps.inherited_eq_nil]
    exact or_iff_left List.not_mem_nil
  · obtain ⟨p, hp, hparent, heq⟩ := hpasses.inherited_of_shares he hshares
    refine ⟨p, hp, hparent, (hlists e he).congr fun t ht => ?_⟩
    rw [hpasses.mem_tablesOf hplain he ht, heq]

end Compilation

/-! ## 5. An example -/

/-- Persons, some of whom are students, some of these graduates; fellows are persons, too. -/
def SchemaDecl.scholars : SchemaDecl where
  entities := [
    ⟨"Person", .regular, none, [⟨"person_id", .integer, true, false, false, []⟩,
      ⟨"name", .varchar, false, false, false, []⟩]⟩,
    ⟨"Student", .subclass, some "Person", [⟨"year", .integer, false, false, false, []⟩]⟩,
    ⟨"Graduate", .subclass, some "Student", [⟨"thesis", .varchar, false, false, false, []⟩]⟩,
    ⟨"Fellow", .subclass, some "Person", [⟨"grant", .varchar, false, false, false, []⟩]⟩]
  relationships := [⟨"Advises", ⟨"Person", some "adviser"⟩, ⟨"Person", some "advisee"⟩, []⟩]

/-- Students and graduates are stored beside persons, and fellows alone. -/
def Grouping.ofScholars : List (List String) := [
  ["Person", "Person.name"], ["Person", "Student", "Student.year"],
  ["Person", "Student", "Graduate", "Graduate.thesis"], ["Fellow", "Fellow.grant"],
  ["Advises", "Person", "Person"]]

namespace Compilation

/-- Graduates are stored where students and persons are, but persons are not stored in every table
with their keys, and fellows are stored apart. -/
theorem hasStorage_scholars : ∃ c,
    ofDecl .scholars (Grouping.ofScholars.map .ofNames) .standard = .ok c ∧
      HasStorage .scholars (Grouping.ofScholars.map .ofNames) c ∧
      c.compiled.ownership.tablesOf "graduate" = ["rel0", "rel1", "rel2"] ∧
      c.compiled.ownership.tablesOf "student" = ["rel0", "rel1"] ∧
      c.compiled.ownership.tablesOf "person" = ["rel0"] ∧
      c.compiled.ownership.tablesOf "fellow" = ["rel3"] ∧
      c.compiled.ownership.tablesOf "advises" = ["rel4"] := by
  have heval : (ofDecl .scholars (Grouping.ofScholars.map .ofNames) .standard).toOption.any
      (fun c => decide (c.compiled.ownership.tablesOf "graduate" = ["rel0", "rel1", "rel2"] ∧
        c.compiled.ownership.tablesOf "student" = ["rel0", "rel1"] ∧
        c.compiled.ownership.tablesOf "person" = ["rel0"] ∧
        c.compiled.ownership.tablesOf "fellow" = ["rel3"] ∧
        c.compiled.ownership.tablesOf "advises" = ["rel4"])) = true := by
    decide +kernel
  obtain ⟨c, hc, heval⟩ := exists_of_any heval
  refine ⟨c, hc, hasStorage_ofDecl hc ?_, of_decide_eq_true heval⟩
  exact ⟨by decide +kernel, by decide +kernel, by decide +kernel⟩

end Compilation

end EntityLayout

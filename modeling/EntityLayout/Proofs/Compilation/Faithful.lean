/-
# Whether composite types mirror their attributes

A composite column is of the type of that name, and the type was made for the first attribute
whose path reads so with underscores in place of its dots.  Other attributes of the same type
name have to make do with its fields.

* `Attribute.HasType`: a type mirrors an attribute, down to the parts of its parts.
* `SchemaDecl.IsTyped`: the attributes that need a type.
* `SchemaDecl.AgreeOnTypes`: no two of them have one type name and different fields.
* `SchemaDecl.agreeOnTypes_of_nodup`: they agree if all composite attributes have types of
  their own names.
* `Compilation.isFaithful_composites`: **exactly then all types mirror their attributes.**
* `Compilation.type_of_home_address`: a home address that is stored as a city.
-/
import EntityLayout.Proofs.Compilation.Passes
import EntityLayout.Proofs.Diagram.Consistency
import EntityLayout.Proofs.Diagram.Paths
import EntityLayout.Proofs.Tables.TypeOrder

namespace EntityLayout

open Sql (SqlType)

/-! ## 1. Types of attributes -/

namespace Attribute

mutual

/-- A type mirrors an attribute at the path above: a composite type has a field for every part
that mirrors it in turn. -/
def HasType (types : TypeRegister) (above : String) : Attribute → SqlType → Prop
  | ⟨name, type, _, _, _, parts⟩, t =>
    if type.isComposite then
      ∃ made fields, t = .composite made ∧ types.get? made = some ⟨made, fields⟩ ∧
        HaveFields types (Path.below above name) parts fields
    else t = .ofAttributeType type

/-- There is one field for each of several attributes, in their order, called by the last name
of its path. -/
def HaveFields (types : TypeRegister) (above : String) :
    List Attribute → List CompositeField → Prop
  | [], fields => fields = []
  | a :: as, fields => ∃ type rest, fields = ⟨Path.leaf (a.pathBelow above), type⟩ :: rest ∧
      HasType types above a type ∧ HaveFields types above as rest

end

variable {types : TypeRegister} {above : String}

theorem haveFields_iff {as : List Attribute} : ∀ {fields : List CompositeField},
    HaveFields types above as fields ↔ List.Forall₂ (fun a f =>
      f.name = Path.leaf (a.pathBelow above) ∧ a.HasType types above f.type) as fields := by
  induction as with
  | nil =>
    intro fields
    rw [HaveFields, List.forall₂_nil_left_iff]
  | cons a as ih =>
    intro fields
    rw [HaveFields, List.forall₂_cons_left_iff]
    constructor
    · rintro ⟨type, rest, rfl, htype, hrest⟩
      exact ⟨⟨Path.leaf (a.pathBelow above), type⟩, rest, ⟨rfl, htype⟩, ih.mp hrest, rfl⟩
    · rintro ⟨⟨name, type⟩, rest, ⟨rfl, htype⟩, hrest, rfl⟩
      exact ⟨type, rest, rfl, htype, ih.mpr hrest⟩

/-- A composite attribute is mirrored by a type with a field for every part. -/
theorem hasType_of_composite {a : Attribute} (ha : a.isComposite = true) {t : SqlType} :
    a.HasType types above t ↔ ∃ made fields, t = .composite made ∧
      types.get? made = some ⟨made, fields⟩ ∧ List.Forall₂ (fun b f =>
        f.name = Path.leaf (b.pathBelow (a.pathBelow above)) ∧
          b.HasType types (a.pathBelow above) f.type) a.shownParts fields := by
  have hparts : a.shownParts = a.parts := if_pos ha
  simp only [← haveFields_iff, hparts]
  obtain ⟨name, type, primaryKey, discriminator, multivalued, parts⟩ := a
  have htype : type.isComposite = true := ha
  rw [HasType, if_pos htype]
  rfl

/-- Any other attribute is mirrored by the type of its values. -/
theorem hasType_of_single {a : Attribute} (ha : a.isComposite = false) {t : SqlType} :
    a.HasType types above t ↔ t = .ofAttributeType a.type := by
  obtain ⟨name, type, primaryKey, discriminator, multivalued, parts⟩ := a
  rw [HasType, if_neg (by simpa [isComposite] using ha)]

/-- The field that is made for an attribute as a part. -/
def field (naming : Naming) (above : String) (a : Attribute) : CompositeField :=
  TypeRegister.fieldOf naming (a.node above above none)

theorem type_field (naming : Naming) (above : String) (a : Attribute) :
    (a.field naming above).type =
      if a.isComposite then .composite (naming.typeName (a.pathBelow above))
      else .ofAttributeType a.type := rfl

/-- A field of a composite type is that of a composite part, and of its type. -/
theorem eq_typeName_of_type_field {naming : Naming} {a : Attribute} {name : String}
    (h : (a.field naming above).type = .composite name) :
    naming.typeName (a.pathBelow above) = name := by
  rw [type_field] at h
  split at h
  · exact SqlType.composite.inj h
  · cases htype : a.type <;> rw [htype] at h <;> exact nomatch h

/-- A field that mirrors an attribute of its name and its type name is the one made for it. -/
theorem field_eq_of_hasType {naming : Naming} {above' : String} {a b : Attribute}
    (hname : (b.field naming above').name = Path.leaf (a.pathBelow above))
    (hsame : naming.typeName (b.pathBelow above') = naming.typeName (a.pathBelow above))
    (htype : a.HasType types above (b.field naming above').type) :
    b.field naming above' = a.field naming above := by
  have htypes : (b.field naming above').type = (a.field naming above).type := by
    cases hcomposite : a.isComposite with
    | false =>
      rw [(hasType_of_single hcomposite).mp htype, a.type_field, hcomposite,
        if_neg (by decide)]
    | true =>
      obtain ⟨made, -, hmade, -⟩ := (hasType_of_composite hcomposite).mp htype
      rw [hmade, a.type_field, hcomposite, if_pos rfl, ← hsame, eq_typeName_of_type_field hmade]
  exact congrArg₂ CompositeField.mk hname htypes

/-- The fields that are made for the parts of an attribute. -/
def fields (naming : Naming) (above : String) (a : Attribute) : List CompositeField :=
  a.shownParts.map (field naming (a.pathBelow above))

end Attribute

namespace SchemaDecl

/-- The attributes that need a composite type: those composite ones that a grouping stores, and
their composite parts. -/
inductive IsTyped (schema : SchemaDecl) (groupings : List Grouping) (naming : Naming) :
    String → String → Option String → Attribute → Prop where
  | stored {above owner : String} {parent : Option String} {a : Attribute} {g : Grouping} :
      schema.DeclaresAt above owner parent a → a.isComposite = true → g ∈ groupings →
        g.Stores schema.diagram naming (a.node above owner parent) →
          IsTyped schema groupings naming above owner parent a
  | part {above owner : String} {parent : Option String} {a b : Attribute} :
      IsTyped schema groupings naming above owner parent a → b ∈ a.shownParts →
        b.isComposite = true →
          IsTyped schema groupings naming (a.pathBelow above) owner (some (a.pathBelow above)) b

/-- **No two attributes have types of one name with different fields.** -/
def AgreeOnTypes (schema : SchemaDecl) (groupings : List Grouping) (naming : Naming) : Prop :=
  ∀ above owner parent a, schema.IsTyped groupings naming above owner parent a →
    ∀ above' owner' parent' b, schema.IsTyped groupings naming above' owner' parent' b →
      naming.typeName (a.pathBelow above) = naming.typeName (b.pathBelow above') →
        a.fields naming above = b.fields naming above'

variable {schema : SchemaDecl} {groupings : List Grouping} {naming : Naming}
  {above owner : String} {parent : Option String} {a : Attribute}

namespace IsTyped

theorem declared (h : schema.IsTyped groupings naming above owner parent a) :
    schema.DeclaresAt above owner parent a := by
  induction h with
  | stored h _ _ _ => exact h
  | part _ hb _ ih => exact ih.part hb

theorem isComposite (h : schema.IsTyped groupings naming above owner parent a) :
    a.isComposite = true := by
  cases h with
  | stored _ h _ _ => exact h
  | part _ _ h => exact h

end IsTyped

/-- The node of an attribute that needs a type. -/
def IsTypedNode (schema : SchemaDecl) (groupings : List Grouping) (naming : Naming)
    (n : AttributeNode) : Prop :=
  ∃ above owner parent a, schema.IsTyped groupings naming above owner parent a ∧
    n = a.node above owner parent

theorem isHereditary_isTypedNode (h : schema.IsWellFormed) :
    TypeRegister.IsHereditary schema.diagram (schema.IsTypedNode groupings naming) := by
  rintro n ⟨above, owner, parent, a, ha, rfl⟩ path hpath part hpart
  obtain ⟨b, hb, rfl, hlt⟩ := ha.declared.exists_part h.isIndexed hpath hpart
  exact ⟨hlt, fun hcomposite => ⟨_, _, _, b, ha.part hb hcomposite, rfl⟩⟩

/-- Attributes of one node have the same fields. -/
theorem DeclaresAt.fields_eq_of_node_eq (hd : schema.diagram.IsIndexed) {above' owner' : String}
    {parent' : Option String} {b : Attribute} (ha : schema.DeclaresAt above owner parent a)
    (hb : schema.DeclaresAt above' owner' parent' b)
    (hnode : a.node above owner parent = b.node above' owner' parent') :
    a.fields naming above = b.fields naming above' := by
  have hparts := ha.mapM_children hd
  rw [hnode, hb.mapM_children hd] at hparts
  have hfields := congrArg (List.map (TypeRegister.fieldOf naming)) (Except.ok.inj hparts)
  rw [List.map_map, List.map_map] at hfields
  exact hfields.symm

/-- **Attributes agree on types if no two composite ones have types of one name.** -/
theorem agreeOnTypes_of_nodup (h : schema.IsWellFormed)
    (hnodup : (((schema.diagram.nodes.filterMap Node.attr?).filter (·.isComposite)).map
      fun n => naming.typeName n.path).Nodup) : schema.AgreeOnTypes groupings naming := by
  have hmem : ∀ {above owner : String} {parent : Option String} {a : Attribute},
      schema.IsTyped groupings naming above owner parent a → a.node above owner parent ∈
        (schema.diagram.nodes.filterMap Node.attr?).filter (·.isComposite) := fun ha =>
    List.mem_filter.mpr ⟨Node.mem_filterMap_attr?.mpr ha.declared.mem_nodes, ha.isComposite⟩
  intro above owner parent a ha above' owner' parent' b hb hname
  exact ha.declared.fields_eq_of_node_eq h.isIndexed hb.declared
    (List.inj_on_of_nodup_map hnodup (hmem ha) (hmem hb) hname)

end SchemaDecl

/-! ## 2. Registered types -/

namespace TypeRegister

variable {naming : Naming} {d : Diagram} {Q : AttributeNode → Prop} {types : TypeRegister}

/-- The composite types of fields are registered. -/
theorem Made.mem_names_of_field (h : Made naming d Q types) : ∀ e ∈ types.entries,
    ∀ f ∈ e.2.fields, ∀ name, f.type = .composite name → name ∈ types.names := by
  induction h with
  | empty => exact fun e he => absurd he List.not_mem_nil
  | @insert types a parts _ _ _ hnames hnew ih =>
    intro e he f hf name hname
    rw [Register.names_insert, if_neg hnew, List.mem_append]
    rw [Register.entries_insert hnew, List.mem_append, List.mem_singleton] at he
    rcases he with he | rfl
    · exact .inl (ih e he f hf name hname)
    · obtain ⟨part, hpart, rfl⟩ := List.mem_map.mp hf
      have htype := congrArg SqlType.composite? hname
      rw [show (fieldOf naming part).type = fieldType naming part from rfl,
        composite?_fieldType] at htype
      split at htype
      · next hcomposite =>
        obtain rfl := Option.some.inj htype
        exact .inl (hnames part hpart hcomposite)
      · exact nomatch htype

end TypeRegister

/-- Where names have no dots, the names of types are told apart by the last names of paths. -/
theorem Naming.typeName_below (naming : Naming) {p q m n : String} (hp : Text.lower p = p)
    (hq : Text.lower q = q) (hm : '.' ∉ m.toList) (hn : '.' ∉ n.toList)
    (htype : naming.typeName p = naming.typeName q)
    (hleaf : Path.leaf (Path.below p m) = Path.leaf (Path.below q n)) :
    naming.typeName (Path.below p m) = naming.typeName (Path.below q n) := by
  have hnames := congrArg String.toList hleaf
  rw [Path.toList_leaf_below hp hm, Path.toList_leaf_below hq hn] at hnames
  have hpaths : Path.separatedBy "_" p = Path.separatedBy "_" q :=
    (String.append_left_inj _).mp htype
  have hchars := congrArg String.toList hpaths
  rw [Path.toList_separatedBy_underscore, Path.toList_separatedBy_underscore] at hchars
  rw [typeName, typeName]
  refine congrArg (· ++ naming.typeSuffix) (String.toList_injective ?_)
  rw [Path.toList_separatedBy_underscore, Path.toList_separatedBy_underscore,
    Path.toList_below hp, Path.toList_below hq, hnames, List.map_append, List.map_append, hchars]

namespace Compilation

variable {schema : SchemaDecl} {groupings : List Grouping} {s : Settings} {c : Compilation}

/-- A column is of a type that mirrors the attribute it holds. -/
structure IsFaithful (schema : SchemaDecl) (types : TypeRegister) (column : Column) : Prop where
  declared : ∃ above owner parent a, schema.DeclaresAt above owner parent a ∧
    a.pathBelow above = column.source
  mirrored : ∀ above owner parent a, schema.DeclaresAt above owner parent a →
    a.pathBelow above = column.source → a.HasType types above column.type

namespace Passes

variable (h : Passes schema groupings s c)

include h

/-- The types are made for the attributes that need one. -/
theorem made_types :
    TypeRegister.Made s.naming schema.diagram (schema.IsTypedNode groupings s.naming)
      c.schema.types ∧ ∀ g ∈ groupings, ∀ a, g.Stores schema.diagram s.naming a →
        a.isComposite = true → s.naming.typeName a.path ∈ c.schema.types.names := by
  refine synthesize_types h.tables h.isIndexed
    (SchemaDecl.isHereditary_isTypedNode h.wellFormed) fun g hg n hn hcomposite => ?_
  obtain ⟨above, parent, a, ha, hna⟩ := SchemaDecl.exists_declaresAt hn.1
  refine ⟨above, n.owner, parent, a, .stored ha ?_ hg (hna ▸ hn), hna⟩
  rw [hna] at hcomposite
  exact hcomposite

/-- **A registered type has the fields of an attribute that needs it.** -/
theorem exists_of_mem_types {name : String} (hname : name ∈ c.schema.types.names) :
    ∃ above owner parent a, schema.IsTyped groupings s.naming above owner parent a ∧
      s.naming.typeName (a.pathBelow above) = name ∧
        c.schema.types.get? name = some ⟨name, a.fields s.naming above⟩ := by
  obtain ⟨type, he⟩ := Register.mem_names.mp hname
  obtain ⟨n, parts, ⟨above, owner, parent, a, ha, rfl⟩, hparts, hentry⟩ :=
    h.made_types.1.exists_of_mem _ he
  obtain ⟨rfl, rfl⟩ := Prod.mk.inj hentry
  obtain rfl := Except.ok.inj ((ha.declared.mapM_children h.isIndexed).symm.trans hparts)
  refine ⟨above, owner, parent, a, ha, rfl, ?_⟩
  rw [Register.get?_eq_some.mpr he, List.map_map]
  rfl

/-! ## 3. Types that mirror attributes -/

/-- **Where attributes agree on types, the types mirror them.** -/
theorem hasType_of_agree (hagree : schema.AgreeOnTypes groupings s.naming) :
    ∀ {a : Attribute} {above owner : String} {parent : Option String},
      schema.IsTyped groupings s.naming above owner parent a →
        s.naming.typeName (a.pathBelow above) ∈ c.schema.types.names →
          a.HasType c.schema.types above (.composite (s.naming.typeName (a.pathBelow above))) := by
  intro a
  induction a using Attribute.induction with
  | step a ih =>
    intro above owner parent ha hname
    obtain ⟨above', owner', parent', b, hb, hsame, hget⟩ := h.exists_of_mem_types hname
    rw [← hagree _ _ _ a ha _ _ _ b hb hsame.symm] at hget
    refine (Attribute.hasType_of_composite ha.isComposite).mpr ⟨_, _, rfl, hget, ?_⟩
    rw [Attribute.fields, List.forall₂_map_right_iff, List.forall₂_same]
    intro x hx
    refine ⟨rfl, ?_⟩
    have htype := x.type_field s.naming (a.pathBelow above)
    cases hcomposite : x.isComposite with
    | false =>
      rw [hcomposite, if_neg (by decide)] at htype
      exact (Attribute.hasType_of_single hcomposite).mpr htype
    | true =>
      rw [hcomposite, if_pos rfl] at htype
      rw [htype]
      refine ih x (Attribute.shownParts_subset hx) (ha.part hx hcomposite) ?_
      exact h.made_types.1.mem_names_of_field _ (Register.get?_eq_some.mp hget) _
        (List.mem_map_of_mem hx) _ htype

/-- **Where names have no dots, a type that mirrors an attribute has its fields.** -/
theorem get?_of_hasType (hdots : ∀ n, .attr n ∈ schema.diagram.nodes → '.' ∉ n.name.toList)
    {a : Attribute} {above owner : String} {parent : Option String}
    (ha : schema.IsTyped groupings s.naming above owner parent a)
    (htype : a.HasType c.schema.types above (.composite (s.naming.typeName (a.pathBelow above)))) :
    c.schema.types.get? (s.naming.typeName (a.pathBelow above)) =
        some ⟨s.naming.typeName (a.pathBelow above), a.fields s.naming above⟩ ∧
      ∀ x ∈ a.shownParts, x.HasType c.schema.types (a.pathBelow above)
        (x.field s.naming (a.pathBelow above)).type := by
  obtain ⟨made, fields, hmade, hget, hfields⟩ :=
    (Attribute.hasType_of_composite ha.isComposite).mp htype
  obtain rfl := SqlType.composite.inj hmade
  obtain ⟨above', owner', parent', b, hb, hsame, hget'⟩ := h.exists_of_mem_types
    (Register.mem_names.mpr ⟨_, Register.get?_eq_some.mp hget⟩)
  obtain rfl : fields = b.fields s.naming above' :=
    (CompositeType.mk.inj (Option.some.inj (hget.symm.trans hget'))).2
  -- part by part, the fields made for `b` are those that `a` would have
  have hall : b.fields s.naming above' = a.fields s.naming above := by
    rw [Attribute.fields, Attribute.fields, ← List.forall₂_eq_eq_eq, List.forall₂_map_left_iff,
      List.forall₂_map_right_iff]
    rw [Attribute.fields, List.forall₂_map_right_iff] at hfields
    refine (forall₂_mem hfields).flip.imp ?_
    rintro y x ⟨hx, hy, hname, hx'⟩
    have hsame' : s.naming.typeName (y.pathBelow (b.pathBelow above')) =
        s.naming.typeName (x.pathBelow (a.pathBelow above)) :=
      s.naming.typeName_below (Attribute.lower_pathBelow _ _) (Attribute.lower_pathBelow _ _)
        (hdots _ (hb.declared.part hy).mem_nodes) (hdots _ (ha.declared.part hx).mem_nodes)
        hsame hname
    exact Attribute.field_eq_of_hasType hname hsame' hx'
  rw [hall] at hget hfields
  rw [Attribute.fields, List.forall₂_map_right_iff, List.forall₂_same] at hfields
  exact ⟨hget, fun x hx => (hfields x hx).2⟩

/-- Every attribute that needs a type has one that mirrors it, if all composite columns do. -/
theorem hasType_of_isFaithful (hdots : ∀ n, .attr n ∈ schema.diagram.nodes → '.' ∉ n.name.toList)
    (hfaithful : ∀ t ∈ c.schema.tables, ∀ column ∈ t.columns, column.form = .composite →
      IsFaithful schema c.schema.types column) {a : Attribute} {above owner : String}
    {parent : Option String} (ha : schema.IsTyped groupings s.naming above owner parent a) :
    a.HasType c.schema.types above (.composite (s.naming.typeName (a.pathBelow above))) := by
  induction ha with
  | @stored above owner parent a g hdeclared hcomposite hg hstores =>
    obtain ⟨t, ht, -, htable⟩ := h.exists_table hg
    obtain ⟨only, hcolumn⟩ := htable.columnOf_mem h.isIndexed hstores
    have hnode : (a.node above owner parent).isComposite = true := hcomposite
    have htype := (hfaithful t ht _ hcolumn (if_pos hnode)).mirrored _ _ _ a hdeclared rfl
    rwa [Blueprint.columnOf, Blueprint.columnType, if_pos hnode] at htype
  | @part above owner parent a b ha hb hcomposite ih =>
    have htype := (h.get?_of_hasType hdots ha ih).2 b hb
    rwa [Attribute.type_field, if_pos hcomposite] at htype

/-- The column of a composite attribute that a grouping stores. -/
theorem exists_of_composite {t : Table} (ht : t ∈ c.schema.tables) {column : Column}
    (hcolumn : column ∈ t.columns) (hform : column.form = .composite) : ∃ g ∈ groupings, ∃ n,
      g.Stores schema.diagram s.naming n ∧ n.isComposite = true ∧ column.source = n.path ∧
        column.type = .composite (s.naming.typeName n.path) := by
  obtain ⟨g, hg, htable⟩ := synthesize_of_mem h.tables ht
  rcases htable.column_cases h.isIndexed hcolumn with ⟨stem, entity, rfl⟩ | ⟨n, only, hn, rfl⟩
  · exact nomatch hform
  · have hcomposite : n.isComposite = true := by
      have hform' : Blueprint.columnForm only n = .composite := hform
      unfold Blueprint.columnForm at hform'
      split at hform'
      · assumption
      · split at hform'
        · cases only <;> exact nomatch hform'
        · exact nomatch hform'
    exact ⟨g, List.mem_of_getElem? hg, n, hn, hcomposite, rfl, if_pos hcomposite⟩

/-- **Where attributes agree on types, every composite column is of a type that mirrors its
attribute.** -/
theorem isFaithful_of_agree (hagree : schema.AgreeOnTypes groupings s.naming) {t : Table}
    (ht : t ∈ c.schema.tables) {column : Column} (hcolumn : column ∈ t.columns)
    (hform : column.form = .composite) : IsFaithful schema c.schema.types column := by
  obtain ⟨g, hg, n, hn, hcomposite, hsource, htype⟩ := h.exists_of_composite ht hcolumn hform
  refine ⟨?_, fun above owner parent a ha hpath => ?_⟩
  · obtain ⟨above, parent, a, ha, hna⟩ := SchemaDecl.exists_declaresAt hn.1
    exact ⟨above, n.owner, parent, a, ha, by rw [hsource, hna]; rfl⟩
  · have hna : a.node above owner parent = n := Node.attr.inj
      (h.isIndexed.eq_of_path ha.mem_nodes hn.1 (hpath.trans hsource))
    subst hna
    have htyped : schema.IsTyped groupings s.naming above owner parent a :=
      .stored ha hcomposite hg hn
    have hmade := h.made_types.2 g hg _ hn hcomposite
    rw [Attribute.path_node] at htype hmade
    rw [htype]
    exact h.hasType_of_agree hagree htyped hmade

end Passes

/-- **Composite types mirror the attributes of their columns if no two attributes have types of
one name and different fields**, and only then where names have no dots. -/
theorem isFaithful_composites (h : ofDecl schema groupings s = .ok c) :
    (schema.AgreeOnTypes groupings s.naming → ∀ t ∈ c.schema.tables, ∀ column ∈ t.columns,
      column.form = .composite → IsFaithful schema c.schema.types column) ∧
    ((∀ n, .attr n ∈ schema.diagram.nodes → '.' ∉ n.name.toList) →
      (∀ t ∈ c.schema.tables, ∀ column ∈ t.columns, column.form = .composite →
        IsFaithful schema c.schema.types column) → schema.AgreeOnTypes groupings s.naming) := by
  have hpasses := ofDecl_eq_ok.mp h
  refine ⟨fun hagree t ht column hcolumn hform =>
    hpasses.isFaithful_of_agree hagree ht hcolumn hform, fun hdots hfaithful => ?_⟩
  intro above owner parent a ha above' owner' parent' b hb hsame
  have hget := (hpasses.get?_of_hasType hdots ha
    (hpasses.hasType_of_isFaithful hdots hfaithful ha)).1
  have hget' := (hpasses.get?_of_hasType hdots hb
    (hpasses.hasType_of_isFaithful hdots hfaithful hb)).1
  rw [hsame] at hget
  exact (CompositeType.mk.inj (Option.some.inj (hget.symm.trans hget'))).2

/-- Buildings with their places. -/
def groupingOfBuildings : List (List String) := [["Building", "Building.Place"]]

/-- The place of a building and the street in it have types of their own, which mirror them. -/
theorem isFaithful_composites_building : ∃ c,
    ofDecl ⟨[.building], []⟩ (groupingOfBuildings.map .ofNames) .standard = .ok c ∧
      SchemaDecl.AgreeOnTypes ⟨[.building], []⟩ (groupingOfBuildings.map .ofNames) .standard ∧
      ∃ t ∈ c.schema.tables, ∃ column ∈ t.columns, column.source = "building.place" ∧
        column.form = .composite ∧ IsFaithful ⟨[.building], []⟩ c.schema.types column := by
  have heval : (ofDecl ⟨[.building], []⟩ (groupingOfBuildings.map .ofNames)
      .standard).toOption.any (fun c => c.schema.tables.any fun t => t.columns.any fun column =>
        decide (column.source = "building.place" ∧ column.form = .composite)) = true := by
    decide +kernel
  obtain ⟨c, hc, heval⟩ := exists_of_any heval
  obtain ⟨t, ht, heval⟩ := List.any_eq_true.mp heval
  obtain ⟨column, hcolumn, heval⟩ := List.any_eq_true.mp heval
  obtain ⟨hsource, hform⟩ := of_decide_eq_true heval
  have hagree : SchemaDecl.AgreeOnTypes ⟨[.building], []⟩ (groupingOfBuildings.map .ofNames)
      .standard := by
    refine SchemaDecl.agreeOnTypes_of_nodup (ofDecl_eq_ok.mp hc).wellFormed ?_
    decide +kernel
  exact ⟨c, hc, hagree, t, ht, column, hcolumn, hsource, hform,
    (isFaithful_composites hc).1 hagree t ht column hcolumn hform⟩

/-! ## 4. Two attributes with one type name -/

/-- The home address of a person. -/
def homeAddress : Attribute := ⟨"home_address", .composite, false, false, false,
  [⟨"street", .varchar, false, false, false, []⟩, ⟨"zip", .varchar, false, false, false, []⟩]⟩

/-- A type with one field does not mirror a home address. -/
theorem not_isFaithful_homeAddress {types : TypeRegister} {column : Column} {name : String}
    {f : CompositeField} (hsource : column.source = "person.home_address")
    (htype : column.type = .composite name) (hget : types.get? name = some ⟨name, [f]⟩) :
    ¬ IsFaithful .homes types column := by
  intro hfaithful
  have hperson : SchemaDecl.homes.Declares (Text.lower "Person") _ :=
    .entity (e := ⟨"Person", .regular, none, _⟩) List.mem_cons_self
  have hdeclared : SchemaDecl.homes.DeclaresAt (Text.lower "Person") (Text.lower "Person") none
      homeAddress := .own hperson (by simp [homeAddress])
  have hpath : homeAddress.pathBelow (Text.lower "Person") = column.source := by
    rw [hsource]
    decide +kernel
  have hmirrored := hfaithful.mirrored _ _ _ _ hdeclared hpath
  obtain ⟨made, fields, hmade, hfields, hall⟩ :=
    (Attribute.hasType_of_composite (by decide)).mp hmirrored
  obtain rfl := SqlType.composite.inj (htype.symm.trans hmade)
  obtain rfl := (CompositeType.mk.inj (Option.some.inj (hget.symm.trans hfields))).2
  exact absurd hall.length_eq (show ¬(2 : Nat) = 1 by decide)

/-- The address of a home and a home address have types of one name, and the column of the
latter is of the type that was made for the former. -/
theorem exists_column_homeAddress : ∃ c t column,
    ofDecl .homes (Grouping.ofHomes.map .ofNames) .standard = .ok c ∧ t ∈ c.schema.tables ∧
      column ∈ t.columns ∧ column.form = .composite ∧ column.source = "person.home_address" ∧
      column.type = .composite "person_home_address_type" ∧
      c.schema.types.get? "person_home_address_type" =
        some ⟨"person_home_address_type", [⟨"city", .varchar 255⟩]⟩ := by
  have heval : (ofDecl .homes (Grouping.ofHomes.map .ofNames) .standard).toOption.any
      (fun c => c.schema.tables.any fun t => t.columns.any fun column =>
        decide (column.form = .composite ∧ column.source = "person.home_address" ∧
          column.type = .composite "person_home_address_type" ∧
          c.schema.types.get? "person_home_address_type" =
            some ⟨"person_home_address_type", [⟨"city", .varchar 255⟩]⟩)) = true := by
    decide +kernel
  obtain ⟨c, hc, heval⟩ := exists_of_any heval
  obtain ⟨t, ht, heval⟩ := List.any_eq_true.mp heval
  obtain ⟨column, hcolumn, heval⟩ := List.any_eq_true.mp heval
  exact ⟨c, t, column, hc, ht, hcolumn, of_decide_eq_true heval⟩

/-- **A home address is stored as a city**: under the settings of an empty text, the column of
the street and zip of a person's home address is of a type whose one field is a city. -/
theorem type_of_home_address : ∃ s c t column,
    Settings.ofText "" = .ok s ∧
      ofDecl .homes (Grouping.ofHomes.map .ofNames) s = .ok c ∧ t ∈ c.schema.tables ∧
      column ∈ t.columns ∧ column.form = .composite ∧ column.source = "person.home_address" ∧
      column.type = .composite "person_home_address_type" ∧
      c.schema.types.get? "person_home_address_type" =
        some ⟨"person_home_address_type", [⟨"city", .varchar 255⟩]⟩ ∧
      ¬ IsFaithful .homes c.schema.types column := by
  have hsettings : Settings.ofText "" = .ok .standard := by decide +kernel
  obtain ⟨c, t, column, hc, ht, hcolumn, hform, hsource, htype, hget⟩ := exists_column_homeAddress
  exact ⟨.standard, c, t, column, hsettings, hc, ht, hcolumn, hform, hsource, htype, hget,
    not_isFaithful_homeAddress hsource htype hget⟩

end Compilation

end EntityLayout

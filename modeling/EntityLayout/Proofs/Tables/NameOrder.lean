/-
# The order of names in a grouping

Whether a grouping qualifies, what it repeats and which relationship it names does not depend on
the order of its names, as long as it names one relationship only.  So another order settles the
same layout, and shows in the order of the columns alone.

* `Grouping.Reorders`: the same names in another order, each as often.
* `Grouping.repeated_perm`: they are repeated alike.
* `Diagram.classify_perm`: **the layout is the same**, if all names are known.
* `synthesize_reorder`: **there are tables for the one order if there are for the other**, and their
  columns are the same up to their order.
-/
import EntityLayout.Proofs.Tables.Failures

namespace EntityLayout

/-! ## 1. Names -/

namespace Grouping

/-- The same names in another order. -/
def Reorders (g g' : Grouping) : Prop := g.names.Perm g'.names

namespace Reorders

variable {g g' : Grouping} (h : g.Reorders g')

include h

theorem symm : g'.Reorders g := List.Perm.symm h

theorem contains_eq (name : String) : g.contains name = g'.contains name := by
  rw [contains, contains, Bool.eq_iff_iff, List.contains_iff_mem, List.contains_iff_mem]
  exact List.Perm.mem_iff h

/-- **The same names are repeated.** -/
theorem repeated_perm : g.repeated.Perm g'.repeated := by
  refine (List.perm_ext_iff_of_nodup (nodup_repeatedAfter _ _ _) (nodup_repeatedAfter _ _ _)).mpr
    fun name => ?_
  exact mem_repeated.trans (by rw [List.Perm.count_eq h, ← mem_repeated]; rfl)

/-- What may be repeated may be so in any order. -/
theorem repeatedName_eq_ok {index : Nat} {repeated : Option String}
    (hok : Blueprint.repeatedName index g = .ok repeated) :
    Blueprint.repeatedName index g' = .ok repeated := by
  have hperm := h.repeated_perm
  cases repeated with
  | none =>
    rw [Blueprint.repeatedName_eq_none] at hok ⊢
    exact List.perm_nil.mp (hok ▸ hperm.symm)
  | some name =>
    rw [Blueprint.repeatedName_eq_some] at hok ⊢
    rw [← List.Perm.count_eq h]
    exact ⟨List.perm_singleton.mp (hok.1 ▸ hperm.symm), hok.2⟩

end Reorders

end Grouping

/-! ## 2. The layout -/

namespace Diagram

variable {d : Diagram}

/-- Where all names are known, one of them is a relationship's if one of the nodes is one. -/
theorem namesRelationship_eq : ∀ {names : List String} {nodes : List Node},
    names.mapM d.nodeAt = .ok nodes →
      d.namesRelationship names = .ok (nodes.any fun n => n.relationship?.isSome)
  | [], nodes, h => by
    obtain rfl := pure_eq_ok.mp h
    rfl
  | name :: names, nodes, h => by
    rw [List.mapM_cons, bind_eq_ok] at h
    obtain ⟨n, hn, h⟩ := h
    obtain ⟨rest, hrest, h⟩ := bind_eq_ok.mp h
    obtain rfl := pure_eq_ok.mp h
    have hbehind := namesRelationship_eq hrest
    rw [namesRelationship, hn, ok_bind]
    cases n with
    | relationship r => rfl
    | entity e => exact hbehind
    | attr a => exact hbehind

/-- All names of a grouping are known. -/
def Knows (d : Diagram) (g : Grouping) : Prop := ∃ nodes, g.names.mapM d.nodeAt = .ok nodes

theorem namesRelationship_perm {g g' : Grouping} (hknown : d.Knows g) (h : g.Reorders g') :
    d.namesRelationship g.names = d.namesRelationship g'.names := by
  obtain ⟨nodes, hnodes⟩ := hknown
  obtain ⟨nodes', hnodes', hperm⟩ := exists_mapM_perm h hnodes
  rw [namesRelationship_eq hnodes, namesRelationship_eq hnodes', hperm.any_eq]

theorem qualifies_perm {entity parent : String} {own : List AttributeNode} {g g' : Grouping}
    (h : g.Reorders g') : qualifies entity parent own g = qualifies entity parent own g' := by
  simp only [qualifies, h.contains_eq]

section

variable {gs gs' : List Grouping} (h : List.Forall₂ Grouping.Reorders gs gs')
  (hknown : ∀ g ∈ gs, d.Knows g)

include h hknown

/-- **The evidence for an entity does not depend on the order of names.** -/
theorem evidence_perm (e : EntityNode) : d.evidence gs e = d.evidence gs' e := by
  unfold evidence
  cases e.parent with
  | none => rfl
  | some parent =>
    refine congrArg (d.attributesOf e.path >>= ·) (funext fun own => ?_)
    refine congrArg (d.attributesOf parent >>= ·) (funext fun inherited => ?_)
    have hboth : List.Forall₂ (fun g g' => d.Knows g ∧ g.Reorders g') gs gs' :=
      (forall₂_mem h).imp fun _ _ ⟨hg, _, hperm⟩ => ⟨hknown _ hg, hperm⟩
    have hfind := find?_rel (forall₂_zipIdx hboth 0) (p := fun x => qualifies e.path parent own x.1)
      (q := fun x => qualifies e.path parent own x.1) fun x y hxy => qualifies_perm hxy.1.2
    generalize gs.zipIdx.find? _ = found at hfind ⊢
    generalize gs'.zipIdx.find? _ = found' at hfind ⊢
    cases hfind with
    | none => rfl
    | @some x y hxy =>
      obtain ⟨g, index⟩ := x
      obtain ⟨g', index'⟩ := y
      obtain ⟨⟨hg, hperm⟩, rfl⟩ := hxy
      simp only [namesRelationship_perm hg hperm, hperm.contains_eq]

theorem decision_perm (e : EntityNode) : d.decision gs e = d.decision gs' e := by
  rw [decision, decision, evidence_perm h hknown]

/-- **The layout does not depend on the order of names.** -/
theorem classify_perm : d.classify gs = d.classify gs' :=
  classifyEach_congr fun e _ => decision_perm h hknown e

end

end Diagram

/-! ## 3. Tables -/

/-- A grouping names one relationship at most. -/
def Grouping.NamesOneRelationship (schema : SchemaDecl) (g : Grouping) : Prop :=
  ∀ r ∈ schema.relationships, ∀ r' ∈ schema.relationships, r.path ∈ g.names.map Text.lower →
    r'.path ∈ g.names.map Text.lower → r.path = r'.path

instance (schema : SchemaDecl) (g : Grouping) : Decidable (g.NamesOneRelationship schema) :=
  inferInstanceAs (Decidable (∀ r ∈ schema.relationships, ∀ r' ∈ schema.relationships,
    r.path ∈ g.names.map Text.lower → r'.path ∈ g.names.map Text.lower → r.path = r'.path))

namespace Blueprint

/-- Tables of one name and grouping that have the same columns, in whatever order. -/
structure Reorders (t t' : Table) : Prop where
  name : t.name = t'.name
  grouping : t.grouping = t'.grouping
  columns : t.columns.Perm t'.columns

variable {schema : SchemaDecl} {layout : Layout} {naming : Naming} {gs : List Grouping}

/-- A relationship that is the only one among some nodes is found in any order of them. -/
theorem findSome?_relationship?_perm {nodes nodes' : List Node} (hperm : nodes.Perm nodes')
    (hone : ∀ r r', .relationship r ∈ nodes → .relationship r' ∈ nodes → r = r') :
    nodes.findSome? Node.relationship? = nodes'.findSome? Node.relationship? := by
  have hfound : ∀ {ns : List Node}, (∀ n, n ∈ ns ↔ n ∈ nodes) → ∀ r,
      ns.findSome? Node.relationship? = some r ↔ .relationship r ∈ nodes := by
    intro ns hns r
    constructor
    · intro h
      obtain ⟨n, hn, hr⟩ := List.exists_of_findSome?_eq_some h
      exact Node.relationship?_eq_some.mp hr ▸ (hns n).mp hn
    · intro hr
      cases h : ns.findSome? Node.relationship? with
      | none => exact nomatch List.findSome?_eq_none_iff.mp h _ ((hns _).mpr hr)
      | some r' =>
        obtain ⟨n, hn, hr'⟩ := List.exists_of_findSome?_eq_some h
        obtain rfl := Node.relationship?_eq_some.mp hr'
        rw [hone r r' hr ((hns _).mp hn)]
  refine Option.ext fun r => ?_
  rw [hfound (fun _ => Iff.rfl), hfound fun _ => hperm.symm.mem_iff]

theorem attributeColumns_perm {b : Blueprint} {nodes nodes' : List Node}
    (hperm : nodes.Perm nodes') :
    (b.attributeColumns (isOnly nodes) nodes).Perm (b.attributeColumns (isOnly nodes') nodes') := by
  have honly : isOnly nodes = isOnly nodes' := by
    rw [isOnly, isOnly, (hperm.filterMap _).length_eq]
  rw [honly]
  exact ((hperm.filterMap _).filter _).map _

theorem keyColumns_perm {b : Blueprint} {nodes nodes' : List Node} (hperm : nodes.Perm nodes') :
    (b.keyColumns nodes).Perm (b.keyColumns nodes') :=
  (List.reverse_perm _).trans ((((hperm.filterMap _).filter _).map _).trans
    (List.reverse_perm _).symm)

section

variable (hw : schema.IsWellFormed) {g g' : Grouping} (hperm : g.Reorders g')
  (hone : g.NamesOneRelationship schema)

include hw hperm hone

/-- **The keys of a table are the same up to their order.** -/
theorem HasKeys.reorder {index : Nat} {nodes nodes' : List Node} {keys : List Column}
    (hnodes : nodesOf ⟨schema.diagram, layout, naming⟩ g = .ok nodes) (hsame : nodes.Perm nodes')
    (h : HasKeys ⟨schema.diagram, layout, naming⟩ index g nodes keys) : ∃ keys',
      HasKeys ⟨schema.diagram, layout, naming⟩ index g' nodes' keys' ∧ keys.Perm keys' := by
  have hrepeated := hperm.repeated_perm
  cases h with
  | entities hnone =>
    exact ⟨_, .entities (List.perm_nil.mp (hnone ▸ hrepeated.symm)), keyColumns_perm hsame⟩
  | @sides name keys hname hsides =>
    refine ⟨keys, .sides (List.perm_singleton.mp (hname ▸ hrepeated.symm)) ?_, .refl _⟩
    have hfind := findSome?_relationship?_perm hsame fun r r' hr hr' => by
      obtain ⟨hmem, n, hn, hpath⟩ := (mem_nodes_iff hw.isIndexed hnodes).mp hr
      obtain ⟨hmem', n', hn', hpath'⟩ := (mem_nodes_iff hw.isIndexed hnodes).mp hr'
      obtain ⟨decl, hdecl, rfl⟩ := SchemaDecl.relationship_mem_nodes_iff.mp hmem
      obtain ⟨decl', hdecl', rfl⟩ := SchemaDecl.relationship_mem_nodes_iff.mp hmem'
      have hsamePath := hone decl hdecl decl' hdecl' (List.mem_map.mpr ⟨n, hn, hpath⟩)
        (List.mem_map.mpr ⟨n', hn', hpath'⟩)
      exact Node.relationship.inj (hw.isIndexed.eq_of_path hmem hmem' hsamePath)
    rw [sideKeys, ← hfind]
    exact hsides

theorem IsTable.reorder {index : Nat} {t : Table}
    (h : IsTable ⟨schema.diagram, layout, naming⟩ index g t) : ∃ t',
      IsTable ⟨schema.diagram, layout, naming⟩ index g' t' ∧ Reorders t t' := by
  obtain ⟨nodes, keys, hnodes, hkeys, rfl, hnodup⟩ := h
  obtain ⟨nodes', hnodes', hsame⟩ := exists_mapM_perm hperm hnodes
  obtain ⟨keys', hkeys', hkeysPerm⟩ := hkeys.reorder hw hperm hone hnodes hsame
  have hcolumns := hkeysPerm.append (attributeColumns_perm (b := ⟨schema.diagram, layout, naming⟩)
    hsame)
  exact ⟨_, ⟨nodes', keys', hnodes', hkeys', rfl, (hcolumns.map _).nodup_iff.mp hnodup⟩,
    rfl, rfl, hcolumns⟩

end

section

variable (hw : schema.IsWellFormed) (hlayout : schema.diagram.classify gs = .ok layout)

include hw hlayout

/-- The columns of nodes that are there can be added. -/
theorem exists_addColumns (repeats only : Bool) {nodes : List Node}
    (hnodes : ∀ n ∈ nodes, n ∈ schema.diagram.nodes) (columns : List Column)
    (types : TypeRegister) : ∃ types',
      addColumns ⟨schema.diagram, layout, naming⟩ repeats only nodes columns types =
        .ok ((if repeats then [] else keyColumns ⟨schema.diagram, layout, naming⟩ nodes) ++ columns
          ++ attributeColumns ⟨schema.diagram, layout, naming⟩ only nodes, types') := by
  cases h : addColumns ⟨schema.diagram, layout, naming⟩ repeats only nodes columns types with
  | ok r =>
    obtain ⟨columns', types'⟩ := r
    exact ⟨types', by rw [addColumns_eq h]⟩
  | error fault => exact absurd h (addColumns_ne_error hw hlayout hnodes)

/-- **A grouping that may have a table gets it**, whichever composite types are there. -/
theorem exists_table {index : Nat} {g : Grouping} {t : Table} {repeated : Option String}
    (h : IsTable ⟨schema.diagram, layout, naming⟩ index g t)
    (hrepeated : repeatedName index g = .ok repeated) (types : TypeRegister) :
    ∃ types', table ⟨schema.diagram, layout, naming⟩ index g types = .ok (t, types') := by
  obtain ⟨nodes, keys, hnodes, hkeys, rfl, hnodup⟩ := h
  have hmem : ∀ n ∈ nodes, n ∈ schema.diagram.nodes := fun n hn =>
    ((mem_nodes_iff hw.isIndexed hnodes).mp hn).1
  have hdup : duplicate? [] (keys ++ attributeColumns ⟨schema.diagram, layout, naming⟩
      (isOnly nodes) nodes) = none := duplicate?_eq_none.mpr ⟨hnodup, fun _ _ => List.not_mem_nil⟩
  have hnames := repeatedName_eq_ok hrepeated
  have hadded : ∀ repeats columns, ∃ types',
      addColumns ⟨schema.diagram, layout, naming⟩ repeats (isOnly nodes) nodes columns types =
        .ok ((if repeats then [] else keyColumns ⟨schema.diagram, layout, naming⟩ nodes) ++ columns
          ++ attributeColumns ⟨schema.diagram, layout, naming⟩ (isOnly nodes) nodes, types') :=
    fun repeats columns => exists_addColumns hw hlayout repeats _ hmem columns types
  simp only [table, hnodes, hrepeated, SynthesisError.ofDiagram, Except.mapError, ok_bind]
  cases hkeys with
  | entities hnone =>
    obtain rfl := Option.toList_eq_nil_iff.mp (hnames.symm.trans hnone)
    obtain ⟨types', htypes⟩ := hadded false []
    rw [isOnly] at htypes hdup
    simp only [pure_bind, Option.isSome_none, htypes, ok_bind, Bool.false_eq_true, if_false,
      List.append_nil, hdup]
    exact ⟨types', rfl⟩
  | @sides name keys hname hsides =>
    obtain rfl := Option.toList_eq_singleton_iff.mp (hnames.symm.trans hname)
    obtain ⟨types', htypes⟩ := hadded true keys
    rw [isOnly] at htypes hdup
    simp only [hsides, Option.isSome_some, htypes, ok_bind, if_true, List.nil_append, hdup]
    exact ⟨types', rfl⟩

/-- **The table of a grouping in another order of its names** has the same columns. -/
theorem table_reorder {index : Nat} {g g' : Grouping} {t : Table} {types types₁ : TypeRegister}
    (h : table ⟨schema.diagram, layout, naming⟩ index g types = .ok (t, types₁))
    (hperm : g.Reorders g') (hone : g.NamesOneRelationship schema) (types' : TypeRegister) :
    ∃ t' types₁', table ⟨schema.diagram, layout, naming⟩ index g' types' = .ok (t', types₁') ∧
      Reorders t t' := by
  obtain ⟨nodes, -, hbehind⟩ := bind_eq_ok.mp h
  obtain ⟨repeated, hrepeated, -⟩ := bind_eq_ok.mp hbehind
  obtain ⟨t', htable', hsame⟩ := (table_eq_ok h).1.reorder hw hperm hone
  obtain ⟨types₁', htypes'⟩ := exists_table hw hlayout htable' (hperm.repeatedName_eq_ok hrepeated)
    types'
  exact ⟨t', types₁', htypes', hsame⟩

/-- The same of all tables.  Each step starts from any register of types: another order of names
makes the types of a grouping in another order. -/
theorem tablesFrom_reorder : ∀ {part part' : List Grouping},
    List.Forall₂ Grouping.Reorders part part' → (∀ g ∈ part, g.NamesOneRelationship schema) →
      ∀ {index : Nat} {ts : List Table} {types types₁ : TypeRegister},
        tablesFrom ⟨schema.diagram, layout, naming⟩ index part types = .ok (ts, types₁) →
          ∀ types' : TypeRegister, ∃ ts' types₁',
            tablesFrom ⟨schema.diagram, layout, naming⟩ index part' types' = .ok (ts', types₁') ∧
              List.Forall₂ Reorders ts ts'
  | _, _, .nil, _, index, ts, types, types₁, h, types' => by
    obtain ⟨rfl, rfl⟩ := Prod.mk.inj (Except.ok.inj h)
    exact ⟨[], types', rfl, .nil⟩
  | _, _, .cons hperm hperms, hone, index, ts, types, types₁, h, types' => by
    obtain ⟨hfirst, hothers⟩ := List.forall_mem_cons.mp hone
    obtain ⟨⟨t, types₂⟩, ht, h⟩ := bind_eq_ok.mp h
    obtain ⟨⟨rest, types₃⟩, hrest, h⟩ := bind_eq_ok.mp h
    obtain ⟨rfl, rfl⟩ := pure_mk_eq_ok.mp h
    obtain ⟨t', types₂', ht', hsame⟩ := table_reorder hw hlayout ht hperm hfirst types'
    obtain ⟨rest', types₃', hrest', hall⟩ := tablesFrom_reorder hperms hothers hrest types₂'
    exact ⟨t' :: rest', types₃', bind_eq_ok.mpr ⟨_, ht', bind_eq_ok.mpr ⟨_, hrest', rfl⟩⟩,
      .cons hsame hall⟩

end

end Blueprint

/-- **In another order of names there are tables, too**, and their columns are the same up to their
order. -/
theorem synthesize_reorder {schema : SchemaDecl} (hw : schema.IsWellFormed)
    {gs gs' : List Grouping} (hperm : List.Forall₂ Grouping.Reorders gs gs')
    (hone : ∀ g ∈ gs, g.NamesOneRelationship schema) {layout : Layout} {naming : Naming}
    {s : PhysicalSchema} (hlayout : schema.diagram.classify gs = .ok layout)
    (h : synthesize schema.diagram layout gs naming = .ok s) :
    ∃ s', synthesize schema.diagram layout gs' naming = .ok s' ∧
      List.Forall₂ Blueprint.Reorders s.tables s'.tables := by
  obtain ⟨⟨ts, types⟩, hts, h⟩ := bind_eq_ok.mp h
  obtain rfl := pure_eq_ok.mp h
  obtain ⟨ts', types', hts', hall⟩ := Blueprint.tablesFrom_reorder hw hlayout hperm hone hts .empty
  exact ⟨⟨ts', types'⟩, bind_eq_ok.mpr ⟨_, hts', rfl⟩, hall⟩

end EntityLayout

/-
# Appending groupings

Groupings are dealt with in order, and each pass looks for the first one that serves.  So groupings
that are appended make tables and types behind those that are there, and an entity that was stored
already is stored where it was and perhaps in more places.  Only a subclass that stands alone may
be placed anew, if a grouping comes that qualifies for it.

* `Compilation.LeavesAlone`: no such grouping comes.
* `Compilation.Extends`, `Compilation.extends_of_append`: **what appending groupings keeps.**
-/
import EntityLayout.Proofs.Compilation.Storage
import EntityLayout.Proofs.Tables.TypeOrder

namespace EntityLayout

namespace Compilation

variable {schema : SchemaDecl} {groupings further : List Grouping} {s : Settings}
  {c c' : Compilation}

/-! ## 1. What is kept -/

/-- No grouping further on qualifies for a subclass that stands alone. -/
def LeavesAlone (schema : SchemaDecl) (c : Compilation) (further : List Grouping) : Prop :=
  ∀ e ∈ schema.entities, e.kind = .subclass →
    c.compiled.layout.placement? e.path = some .alone → ∀ g ∈ further, ¬e.Qualifies g

instance (c : Compilation) (further : List Grouping) : Decidable (LeavesAlone schema c further) :=
  inferInstanceAs (Decidable (∀ _ ∈ _, _))

/-- What a compilation keeps of another one, which had only the first `count` groupings. -/
structure Extends (schema : SchemaDecl) (count : Nat) (c c' : Compilation) : Prop where
  layout : c'.compiled.layout = c.compiled.layout
  structures : c'.compiled.structures = c.compiled.structures
  /-- the tables of these groupings are the same, columns included -/
  tables : c'.schema.tables.take count = c.schema.tables
  /-- further composite types stand behind those that were there -/
  types : c.schema.types.entries <+: c'.schema.types.entries
  /-- further tables of an entity stand behind those that it had -/
  entities : ∀ e ∈ schema.entities,
    c.compiled.ownership.tablesOf e.path <+: c'.compiled.ownership.tablesOf e.path
  /-- a relationship keeps its table -/
  relationships : ∀ r ∈ schema.relationships, ∃ t ∈ c.schema.tables,
    c.compiled.ownership.tablesOf r.path = [t.name] ∧
      c'.compiled.ownership.tablesOf r.path = [t.name]

namespace Passes

variable (h : Passes schema groupings s c) (h' : Passes schema (groupings ++ further) s c')

include h h'

/-! ## 2. Pass by pass -/

theorem layout_append (halone : LeavesAlone schema c further) :
    c'.compiled.layout = c.compiled.layout := by
  have hsame : schema.diagram.classify (groupings ++ further) = .ok c.compiled.layout := by
    refine Diagram.classify_append h.layout h.isIndexed ?_
    intro e he hplacement parent own hparent hown g hg
    have hdecision := Diagram.classify_entity h.layout h.isIndexed he
    have hkind := Diagram.kind_of_placement? hdecision hplacement
    obtain ⟨decl, hdecl, rfl⟩ := SchemaDecl.entity_mem_nodes_iff.mp he
    have hnot := halone decl hdecl hkind hplacement g hg
    rw [← h.wellFormed.qualifies_iff hdecl hparent hown g] at hnot
    exact Bool.eq_false_iff.mpr hnot
  exact Except.ok.inj (h'.layout.symm.trans hsame)

section

variable (hlayout : c'.compiled.layout = c.compiled.layout)

include hlayout

theorem structures_append : c'.compiled.structures = c.compiled.structures := by
  have hderive := h'.structures
  rw [hlayout] at hderive
  exact Except.ok.inj (hderive.symm.trans h.structures)

theorem schema_append : c.schema.tables <+: c'.schema.tables ∧
    c.schema.types.entries <+: c'.schema.types.entries := by
  have htables := h'.tables
  rw [hlayout] at htables
  exact synthesize_append h.tables h.isIndexed h.wellFormed.isHereditary htables

/-- **The tables that are there have the same owners.** -/
theorem mem_tablesOf_append : ∀ e ∈ schema.entities, ∀ t ∈ c.schema.tables,
    t.name ∈ c'.compiled.ownership.tablesOf e.path ↔
      t.name ∈ c.compiled.ownership.tablesOf e.path := by
  refine h.wellFormed.entity_induction fun e he ih t ht => ?_
  have ht' : t ∈ c'.schema.tables := (h.schema_append h' hlayout).1.subset ht
  have hmem := h.mem_tablesIn_entity he (t := t)
  have hmem' := h'.mem_tablesIn_entity he (t := t)
  rw [Ownership.mem_tablesIn, and_congr_right_iff] at hmem hmem'
  rw [hmem ht, hmem' ht', hlayout]
  have hdirect : Ownership.ownsDirectly (groupings ++ further) e.node t =
      Ownership.ownsDirectly groupings e.node t := by
    obtain ⟨g, hg, -⟩ := synthesize_of_mem h.tables ht
    rw [Ownership.ownsDirectly, Ownership.ownsDirectly,
      Ownership.groupingNames_append (List.getElem?_eq_some_iff.mp hg).1]
  rw [hdirect]
  refine or_congr_right ?_
  -- what comes from the parent is known to be the same by induction
  rw [Ownership.inherited, Ownership.inherited]
  cases hparent : e.node.parent with
  | none => exact Iff.rfl
  | some parent =>
    simp only
    split
    · obtain ⟨p, -, hpath, hsame⟩ := ih (EntityDecl.kind_ne_regular hparent)
      obtain rfl := Option.some.inj (hparent.symm.trans hpath)
      exact hsame t ht
    · exact Iff.rfl

theorem tablesOf_append {e : EntityDecl} (he : e ∈ schema.entities) :
    c.compiled.ownership.tablesOf e.path <+: c'.compiled.ownership.tablesOf e.path := by
  rw [← Ownership.map_name_tablesIn h.ownership h.isIndexed (synthesize_nodup h.tables) e.path,
    ← Ownership.map_name_tablesIn h'.ownership h'.isIndexed (synthesize_nodup h'.tables) e.path]
  obtain ⟨rest, hrest⟩ := (h.schema_append h' hlayout).1
  have hold : (c.schema.tables.filter fun t =>
      (c'.compiled.ownership.tablesOf e.path).contains t.name) =
        c.compiled.ownership.tablesIn c.schema e.path := by
    refine List.filter_congr fun t ht => ?_
    rw [Bool.eq_iff_iff, List.contains_iff_mem, List.contains_iff_mem]
    exact h.mem_tablesOf_append h' hlayout e he t ht
  rw [Ownership.tablesIn.eq_1 c'.compiled.ownership, ← hrest, List.filter_append, hold]
  exact (List.prefix_append _ _).map Table.name

theorem relationship_append {r : RelationshipDecl} (hr : r ∈ schema.relationships) :
    ∃ t ∈ c.schema.tables, c.compiled.ownership.tablesOf r.path = [t.name] ∧
      c'.compiled.ownership.tablesOf r.path = [t.name] := by
  obtain ⟨t, ht, htables, hnames⟩ := h.exists_tablesOf_relationship hr
  obtain ⟨t', ht', htables', hnames'⟩ := h'.exists_tablesOf_relationship hr
  obtain ⟨g, hg, -⟩ := synthesize_of_mem h.tables ht
  have hg' : (groupings ++ further)[t.grouping]? = some g := by
    rw [List.getElem?_append_left (List.getElem?_eq_some_iff.mp hg).1, hg]
  have hsame : t.grouping = t'.grouping := (hnames' _ g hg').mp ((hnames _ g hg).mpr rfl)
  obtain rfl := synthesize_inj h'.tables ((h.schema_append h' hlayout).1.subset ht) ht' hsame
  exact ⟨t, ht, htables, htables'⟩

end

end Passes

/-- **Appending groupings keeps everything that is settled**, unless one of them qualifies for a
subclass that stands alone. -/
theorem extends_of_append (h : ofDecl schema groupings s = .ok c)
    (h' : ofDecl schema (groupings ++ further) s = .ok c') (halone : LeavesAlone schema c further) :
    Extends schema groupings.length c c' := by
  have hpasses := ofDecl_eq_ok.mp h
  have hpasses' := ofDecl_eq_ok.mp h'
  have hlayout := hpasses.layout_append hpasses' halone
  obtain ⟨htables, htypes⟩ := hpasses.schema_append hpasses' hlayout
  refine {
    layout := hlayout
    structures := hpasses.structures_append hpasses' hlayout
    tables := ?_
    types := htypes
    entities := fun e he => hpasses.tablesOf_append hpasses' hlayout he
    relationships := fun r hr => hpasses.relationship_append hpasses' hlayout hr }
  have hlength := congrArg List.length (synthesize_groupings hpasses.tables)
  rw [List.length_map, List.length_range'] at hlength
  rw [← hlength]
  exact (List.prefix_iff_eq_take.mp htables).symm

end Compilation

/-! ## 3. An example -/

/-- Students are stored beside persons, fellows are stored apart, and graduates not at all. -/
def Grouping.ofMembers : List (List String) := [
  ["Person", "Person.name"], ["Person", "Student", "Student.year"], ["Fellow", "Fellow.grant"],
  ["Advises", "Person", "Person"]]

/-- A table for graduates, and another one for students. -/
def Grouping.ofNewcomers : List (List String) := [
  ["Graduate", "Graduate.thesis"], ["Person", "Student", "Student.year"]]

namespace Compilation

/-- Graduates come to be stored, still alone, and students are stored in one more table. -/
theorem extends_scholars : ∃ c c',
    ofDecl .scholars (Grouping.ofMembers.map .ofNames) .standard = .ok c ∧
      ofDecl .scholars (Grouping.ofMembers.map .ofNames ++ Grouping.ofNewcomers.map .ofNames)
        .standard = .ok c' ∧
      LeavesAlone .scholars c (Grouping.ofNewcomers.map .ofNames) ∧
      Extends .scholars 4 c c' ∧ c.compiled.layout.placement? "graduate" = some .alone ∧
      c'.compiled.ownership.tablesOf "graduate" = ["rel4"] ∧
      c.compiled.ownership.tablesOf "student" = ["rel0", "rel1"] ∧
      c'.compiled.ownership.tablesOf "student" = ["rel0", "rel1", "rel5"] := by
  have heval : (ofDecl .scholars (Grouping.ofMembers.map .ofNames) .standard).toOption.any (fun c =>
      decide (LeavesAlone .scholars c (Grouping.ofNewcomers.map .ofNames) ∧
        c.compiled.layout.placement? "graduate" = some .alone ∧
          c.compiled.ownership.tablesOf "student" = ["rel0", "rel1"])) = true := by
    decide +kernel
  have heval' : (ofDecl .scholars (Grouping.ofMembers.map .ofNames ++
      Grouping.ofNewcomers.map .ofNames) .standard).toOption.any (fun c' =>
        decide (c'.compiled.ownership.tablesOf "graduate" = ["rel4"] ∧
          c'.compiled.ownership.tablesOf "student" = ["rel0", "rel1", "rel5"])) = true := by
    decide +kernel
  obtain ⟨c, hc, heval⟩ := exists_of_any heval
  obtain ⟨c', hc', heval'⟩ := exists_of_any heval'
  obtain ⟨halone, hgraduate, hstudent⟩ := of_decide_eq_true heval
  obtain ⟨hgraduate', hstudent'⟩ := of_decide_eq_true heval'
  exact ⟨c, c', hc, hc', halone, extends_of_append hc hc' halone, hgraduate, hgraduate', hstudent,
    hstudent'⟩

end Compilation

end EntityLayout

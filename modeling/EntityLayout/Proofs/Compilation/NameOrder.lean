/-
# Names inside a grouping in another order

A grouping is a bag of names: in another order it settles the same layout, its table belongs to the
same nodes and has the same columns.  What the order does decide is which relationship a table with
a repeated name is made for, so a grouping may name one relationship only.

* `Ownership.resolve_reorder`: the same tables are owned.
* `Compilation.SameColumns`, `Compilation.sameColumns_of_reorders`: **compilations succeed
  together, and differ in the order of columns only.**
-/
import EntityLayout.Proofs.Compilation.Reordering
import EntityLayout.Proofs.Tables.NameOrder

namespace EntityLayout

/-! ## 1. Ownership -/

namespace Ownership

variable {layout : Layout} {gs gs' : List Grouping} {ts ts' : List Table}

theorem groupingNames_reorder (hgs : List.Forall₂ Grouping.Reorders gs gs') {t t' : Table}
    (h : Blueprint.Reorders t t') (path : String) :
    groupingNames gs t path = groupingNames gs' t' path := by
  have hat := getElem?_rel hgs t.grouping
  rw [groupingNames, groupingNames, ← h.grouping]
  generalize gs[t.grouping]? = found at hat ⊢
  generalize gs'[t.grouping]? = found' at hat ⊢
  cases hat with
  | none => rfl
  | some hperm => exact hperm.contains_eq path

theorem ownsDirectly_reorder (hgs : List.Forall₂ Grouping.Reorders gs gs') (e : EntityNode)
    {t t' : Table} (h : Blueprint.Reorders t t') : ownsDirectly gs e t = ownsDirectly gs' e t' := by
  have hsource : t.hasSource = t'.hasSource := funext fun source => h.columns.any_eq
  rw [ownsDirectly, ownsDirectly, groupingNames_reorder hgs h, hsource]

/-- Tables that are picked alike have the same names. -/
theorem map_name_filter (hts : List.Forall₂ Blueprint.Reorders ts ts') {p q : Table → Bool}
    (htest : ∀ t t', Blueprint.Reorders t t' → p t = q t') :
    (ts.filter p).map Table.name = (ts'.filter q).map Table.name := by
  induction hts with
  | nil => rfl
  | @cons t t' ts ts' h _ ih =>
    rw [List.filter_cons, List.filter_cons, ← htest t t' h]
    cases p t with
    | true => exact congrArg₂ List.cons h.name ih
    | false => exact ih

section

variable (hgs : List.Forall₂ Grouping.Reorders gs gs')
  (hts : List.Forall₂ Blueprint.Reorders ts ts')

include hgs hts

theorem entityTables_reorder (settled : Ownership) (e : EntityNode) :
    entityTables layout gs ts settled e = entityTables layout gs' ts' settled e :=
  map_name_filter hts fun t t' h => by rw [ownsDirectly_reorder hgs e h, h.name]

theorem relationshipTables_reorder (path : String) :
    relationshipTables gs ts path = relationshipTables gs' ts' path := by
  rw [relationshipTables, relationshipTables,
    map_name_filter hts fun t t' h => groupingNames_reorder hgs h path]

theorem resolveEach_reorder : ∀ (ns : List Node) (settled : Ownership),
    resolveEach layout gs ts ns settled = resolveEach layout gs' ts' ns settled
  | [], _ => rfl
  | .entity e :: ns, settled => by
    rw [resolveEach, resolveEach, entityTables_reorder hgs hts, resolveEach_reorder ns]
  | .relationship r :: ns, settled => by
    rw [resolveEach, resolveEach, relationshipTables_reorder hgs hts]
    exact congrArg (relationshipTables gs' ts' r.path >>= ·)
      (funext fun owned => resolveEach_reorder ns _)
  | .attr a :: ns, settled => by
    rw [resolveEach, resolveEach, resolveEach_reorder ns]

end

/-- **Every node owns the same tables**, in whatever order the groupings give their names. -/
theorem resolve_reorder {d : Diagram} {s s' : PhysicalSchema}
    (hgs : List.Forall₂ Grouping.Reorders gs gs')
    (hts : List.Forall₂ Blueprint.Reorders s.tables s'.tables) :
    resolve d layout gs s = resolve d layout gs' s' := resolveEach_reorder hgs hts _ _

end Ownership

/-! ## 2. Compilations -/

namespace Compilation

/-- Compilations that differ in the order of columns only, and in the composite types. -/
structure SameColumns (c c' : Compilation) : Prop where
  layout : c.compiled.layout = c'.compiled.layout
  ownership : c.compiled.ownership = c'.compiled.ownership
  structures : c.compiled.structures = c'.compiled.structures
  /-- each table has the same name and the same columns, in whatever order -/
  tables : List.Forall₂ Blueprint.Reorders c.schema.tables c'.schema.tables

variable {schema : SchemaDecl} {gs gs' : List Grouping} {s : Settings} {c : Compilation}

/-- All names of the groupings are known once there are tables. -/
theorem Passes.knows (h : Passes schema gs s c) : ∀ g ∈ gs, schema.diagram.Knows g := by
  intro g hg
  obtain ⟨t, -, -, nodes, keys, hnodes, -⟩ := h.exists_table hg
  exact ⟨nodes, hnodes⟩

/-- A compilation succeeds in another order of names, with the same results. -/
theorem Passes.exists_sameColumns (h : Passes schema gs s c)
    (hperm : List.Forall₂ Grouping.Reorders gs gs')
    (hone : ∀ g ∈ gs, g.NamesOneRelationship schema) :
    ∃ c', Passes schema gs' s c' ∧ SameColumns c c' := by
  obtain ⟨tables, htables, hsame⟩ := synthesize_reorder h.wellFormed hperm hone h.layout h.tables
  refine ⟨⟨⟨schema.diagram, c.compiled.layout, c.compiled.ownership, c.compiled.structures⟩,
    tables, s.dialect, s.validate⟩, ⟨h.wellFormed, rfl, ?_, htables, ?_, h.structures, rfl, rfl⟩,
    rfl, rfl, rfl, hsame⟩
  · rw [← Diagram.classify_perm hperm h.knows]
    exact h.layout
  · rw [← Ownership.resolve_reorder hperm hsame]
    exact h.ownership

theorem namesOneRelationship_of_reorders (hperm : List.Forall₂ Grouping.Reorders gs gs')
    (hone : ∀ g ∈ gs, g.NamesOneRelationship schema) :
    ∀ g ∈ gs', g.NamesOneRelationship schema := by
  intro g' hg'
  obtain ⟨g, hg, h⟩ := exists_of_mem_right hperm hg'
  intro r hr r' hr' hnamed hnamed'
  have hmem : ∀ {path : String}, path ∈ g'.names.map Text.lower →
      path ∈ g.names.map Text.lower := (List.Perm.map Text.lower h).mem_iff.mpr
  exact hone g hg r hr r' hr' (hmem hnamed) (hmem hnamed')

/-- **The order of names inside groupings does not matter** but for the order of columns, if no
grouping names two relationships.  A schema compiles with both lists of groupings or with neither,
and then the layout, the ownership and the structures are the same, and so are the tables up to the
order of their columns. -/
theorem sameColumns_of_reorders (schema : SchemaDecl) (s : Settings)
    (hperm : List.Forall₂ Grouping.Reorders gs gs')
    (hone : ∀ g ∈ gs, g.NamesOneRelationship schema) :
    ((∃ c, ofDecl schema gs s = .ok c) ↔ ∃ c', ofDecl schema gs' s = .ok c') ∧
      ∀ c c', ofDecl schema gs s = .ok c → ofDecl schema gs' s = .ok c' → SameColumns c c' := by
  constructor
  · constructor
    · rintro ⟨c, hc⟩
      obtain ⟨c', hc', -⟩ := (ofDecl_eq_ok.mp hc).exists_sameColumns hperm hone
      exact ⟨c', ofDecl_eq_ok.mpr hc'⟩
    · rintro ⟨c', hc'⟩
      have hback := hperm.flip.imp fun _ _ h => Grouping.Reorders.symm h
      obtain ⟨c, hc, -⟩ := (ofDecl_eq_ok.mp hc').exists_sameColumns hback
        (namesOneRelationship_of_reorders hperm hone)
      exact ⟨c, ofDecl_eq_ok.mpr hc⟩
  · intro c c' hc hc'
    obtain ⟨c'', hc'', hsame⟩ := (ofDecl_eq_ok.mp hc).exists_sameColumns hperm hone
    obtain rfl := Except.ok.inj (hc'.symm.trans (ofDecl_eq_ok.mpr hc''))
    exact hsame

/-- Travels compile with the names of every grouping reversed, and columns stand in another
order. -/
theorem sameColumns_travels : ∃ c c',
    ofDecl .travels (Grouping.ofTravels.map .ofNames) .standard = .ok c ∧
      ofDecl .travels ((Grouping.ofTravels.map List.reverse).map .ofNames) .standard = .ok c' ∧
      SameColumns c c' ∧ c.schema.tables ≠ c'.schema.tables := by
  have hperm : List.Forall₂ Grouping.Reorders (Grouping.ofTravels.map .ofNames)
      ((Grouping.ofTravels.map List.reverse).map .ofNames) := by
    rw [List.map_map, List.forall₂_map_left_iff, List.forall₂_map_right_iff]
    exact List.forall₂_same.mpr fun names _ => (List.reverse_perm names).symm.map Text.lower
  obtain ⟨-, hsame⟩ := sameColumns_of_reorders .travels .standard hperm (by decide +kernel)
  have hnames : (ofDecl .travels (Grouping.ofTravels.map .ofNames) .standard).toOption.any (fun c =>
      decide ((c.schema.tables[4]?.map fun t => t.columns.map Column.name) =
        some ["traveller_id", "city_id", "trip_id", "day", "hours"])) = true := by decide +kernel
  have hnames' : (ofDecl .travels ((Grouping.ofTravels.map List.reverse).map .ofNames)
      .standard).toOption.any (fun c =>
      decide ((c.schema.tables[4]?.map fun t => t.columns.map Column.name) =
        some ["trip_id", "city_id", "traveller_id", "hours", "day"])) = true := by decide +kernel
  obtain ⟨c, hc, hnames⟩ := exists_of_any hnames
  obtain ⟨c', hc', hnames'⟩ := exists_of_any hnames'
  refine ⟨c, c', hc, hc', hsame c c' hc hc', fun heq => ?_⟩
  have hcolumns := (of_decide_eq_true hnames).symm.trans (heq ▸ of_decide_eq_true hnames')
  exact absurd hcolumns (by decide)

/-- With two relationships in a grouping the first one counts: one of weak entities is refused. -/
example :
    (ofDecl .travels ((Grouping.ofTravels.take 4 ++ [["Visits", "Meets", "Traveller",
      "Traveller"]]).map .ofNames) .standard).isOk = false ∧
    (ofDecl .travels ((Grouping.ofTravels.take 4 ++ [["Meets", "Visits", "Traveller",
      "Traveller"]]).map .ofNames) .standard).isOk = true := by decide +kernel

end Compilation

end EntityLayout

/-
# Which nodes have queries

After a compilation every entity and relationship has a structure, the tables it owns are in the
schema, and what owns a table has something to select.  So a query is missing for one of three
reasons only.

* `Compilation.Unanswered`: the three reasons, each with the nodes it can befall.
* `Compilation.unanswered_iff`: **a node has no query exactly for one of these reasons.**
-/
import EntityLayout.Proofs.Compilation.Joins

namespace EntityLayout

open Sql (Dialect Query)

/-! ## 1. Readers of SQL -/

/-- The text of a query; one that `accepts` does not accept is refused if `validate` is set. -/
def Reconstruction.renderBy (accepts : Dialect → String → Bool) (d : Dialect) (validate : Bool)
    (q : Query) : Except ReconstructionError String :=
  if validate && !accepts d (q.text d) then .error (.unreadable d) else .ok (q.text d)

namespace Compilation

variable {schema : SchemaDecl} {groupings : List Grouping} {s : Settings} {c : Compilation}
  {n : Node} {name : String} {as : List Attribute}

/-! ## 2. Reasons for not answering -/

open Reconstruction (IsJoinable Provides)

/-- Why an entity or relationship has no query. -/
inductive Unanswered (c : Compilation) : Node → ReconstructionError → Prop where
  /-- an entity owns no table -/
  | noTables {e : EntityNode} : c.compiled.ownership.tablesIn c.schema e.path = [] →
      Unanswered c (.entity e) (.noTables e.path)
  /-- a subclass that does not stand alone owns several tables, one of them without a key -/
  | noJoinKey {e : EntityNode} {t : Table} : e.isSubclass = true →
      c.compiled.layout.isAlone e.path = false →
        1 < (c.compiled.ownership.tablesIn c.schema e.path).length →
          (c.compiled.ownership.tablesIn c.schema e.path).find? (·.joinKey?.isNone) = some t →
            Unanswered c (.entity e) (.noJoinKey e.path t.name)
  /-- no column of the tables provides an attribute of the structure, and it is the first such -/
  | noColumn {n : Node} {before after : List Attribute} {a : Attribute} :
      IsJoinable (c.compiled.ownership.tablesIn c.schema n.path) →
        c.compiled.structures.get? n.path = some (before ++ a :: after) →
          (∀ b ∈ before, Provides (c.compiled.ownership.tablesIn c.schema n.path) b) →
            ¬Provides (c.compiled.ownership.tablesIn c.schema n.path) a →
              Unanswered c n (.noColumn n.path a.name)

namespace Passes

variable (h : Passes schema groupings s c)

include h

/-! ## 3. What every node has -/

/-- Every entity and relationship has a structure. -/
theorem exists_structure (hn : n ∈ schema.diagram.nodes) (howner : n.isOwner = true) :
    ∃ as, c.compiled.structures.get? n.path = some as := by
  have hname : n.path ∈ c.compiled.structures.names := by
    rw [Structures.derive_names h.structures h.isIndexed]
    exact List.mem_map_of_mem (List.mem_filter.mpr ⟨hn, howner⟩)
  obtain ⟨as, has⟩ := Register.mem_names.mp hname
  exact ⟨as, Register.get?_eq_some.mpr has⟩

/-- A relationship owns one table. -/
theorem length_tablesIn_relationship {r : RelationshipDecl} (hr : r ∈ schema.relationships) :
    (c.compiled.ownership.tablesIn c.schema r.path).length = 1 := by
  obtain ⟨t, -, htables, -⟩ := h.exists_tablesOf_relationship hr
  have hnames := Ownership.map_name_tablesIn h.ownership h.isIndexed (synthesize_nodup h.tables)
    r.path
  rw [htables] at hnames
  simpa using congrArg List.length hnames

/-- The structure of a relationship has a key. -/
theorem structure_relationship_ne_nil {r : RelationshipDecl} (hr : r ∈ schema.relationships)
    (hget : c.compiled.structures.get? r.path = some as) : as ≠ [] := by
  obtain ⟨as', hget', hof⟩ := Structures.derive_relationship h.structures h.isIndexed
    (SchemaDecl.relationship_mem_nodes hr)
  obtain rfl := Option.some.inj (hget.symm.trans hget')
  obtain ⟨e₁, e₂, left, right, first, second, own, -, hleft, -, hkeys, -, rfl⟩ :=
    Structures.ofRelationship_eq_ok.mp hof
  obtain ⟨s, -, hcount, rfl⟩ := Structures.leading_eq_ok.mp hleft
  have hpos := Structures.keyCount_pos e₁
  have hlength := (Structures.length_sideKeys hkeys).1
  rw [List.length_take, Nat.min_eq_left hcount] at hlength
  rw [← List.length_pos_iff, List.length_append, List.length_append, hlength]
  omega

/-- **What owns a table has something to select.** -/
theorem structure_entity_ne_nil {e : EntityDecl} (he : e ∈ schema.entities)
    (htables : c.compiled.ownership.tablesIn c.schema e.path ≠ [])
    (hget : c.compiled.structures.get? e.path = some as) : as ≠ [] := by
  obtain ⟨inherited, hinherits, hget'⟩ := h.structure_entity he
  obtain rfl := Option.some.inj (hget.symm.trans hget')
  rw [← List.length_pos_iff, Structures.length_withInherited, List.length_map]
  have hinherited : inherited ≠ [] → 0 < inherited.length + e.attributes.length := fun hne =>
    Nat.add_pos_left (List.length_pos_iff.mpr hne) _
  cases hinherits with
  | weak => exact hinherited (List.cons_ne_nil _ _)
  | subclass hsome hweak hs =>
    exact hinherited (h.inherited_ne_nil he (.subclass hsome hweak hs) (by rw [hsome]; rfl))
  | regular hnone =>
    -- nothing is inherited, so some table stores an attribute of the entity
    obtain ⟨t, ht⟩ := List.exists_mem_of_ne_nil _ htables
    rcases ((h.mem_tablesIn_entity he).mp ht).2 with hdirect | hinherits
    · obtain ⟨-, p, hp, -⟩ := Ownership.ownsDirectly_iff.mp hdirect
      refine Nat.add_pos_right _ (List.length_pos_iff.mpr fun hnil => ?_)
      rw [EntityDecl.attributes_node_eq_nil hnil] at hp
      exact List.not_mem_nil hp
    · rw [Ownership.inherited, hnone] at hinherits
      exact absurd hinherits List.not_mem_nil

/-- A node that owns a table has something to select. -/
theorem structure_ne_nil (hn : n ∈ schema.diagram.nodes) (howner : n.isOwner = true)
    (htables : c.compiled.ownership.tablesIn c.schema n.path ≠ [])
    (hget : c.compiled.structures.get? n.path = some as) : as ≠ [] := by
  cases n with
  | entity e =>
    obtain ⟨decl, hdecl, rfl⟩ := SchemaDecl.entity_mem_nodes_iff.mp hn
    exact h.structure_entity_ne_nil hdecl htables hget
  | relationship r =>
    obtain ⟨decl, hdecl, rfl⟩ := SchemaDecl.relationship_mem_nodes_iff.mp hn
    exact h.structure_relationship_ne_nil hdecl hget
  | attr a => exact nomatch howner

/-! ## 4. Queries -/

/-- Only an entity can be without a table. -/
theorem unanswered_noTables (hn : n ∈ schema.diagram.nodes) (howner : n.isOwner = true)
    (htables : c.compiled.ownership.tablesIn c.schema n.path = []) :
    Unanswered c n (.noTables n.path) := by
  cases n with
  | entity e => exact .noTables htables
  | relationship r =>
    obtain ⟨decl, hdecl, rfl⟩ := SchemaDecl.relationship_mem_nodes_iff.mp hn
    have hlength := h.length_tablesIn_relationship hdecl
    rw [show c.compiled.ownership.tablesIn c.schema decl.path = [] from htables] at hlength
    exact nomatch hlength
  | attr a => exact nomatch howner

/-- Only a subclass that has tables of its parent can have one without a key among several. -/
theorem unanswered_noJoinKey (hn : n ∈ schema.diagram.nodes) (howner : n.isOwner = true) {t : Table}
    (hseveral : 1 < (c.compiled.ownership.tablesIn c.schema n.path).length)
    (hfirst : (c.compiled.ownership.tablesIn c.schema n.path).find? (·.joinKey?.isNone) = some t) :
    Unanswered c n (.noJoinKey n.path t.name) := by
  cases n with
  | entity e =>
    obtain ⟨decl, hdecl, rfl⟩ := SchemaDecl.entity_mem_nodes_iff.mp hn
    have hshares : ¬c.KeepsToItself decl := by
      intro hkeeps
      obtain ⟨key, hkey⟩ := h.exists_joinKey hdecl hkeeps (List.mem_of_find?_eq_some hfirst)
      have hnone := List.find?_some hfirst
      rw [hkey] at hnone
      exact nomatch hnone
    obtain ⟨hkind, halone⟩ := Classical.not_imp.mp hshares
    exact .noJoinKey (decide_eq_true hkind) (Bool.eq_false_iff.mpr halone) hseveral hfirst
  | relationship r =>
    obtain ⟨decl, hdecl, rfl⟩ := SchemaDecl.relationship_mem_nodes_iff.mp hn
    have hlength := h.length_tablesIn_relationship hdecl
    rw [show c.compiled.ownership.tablesIn c.schema (Node.relationship decl.node).path =
      c.compiled.ownership.tablesIn c.schema decl.path from rfl, hlength] at hseveral
    exact absurd hseveral (Nat.lt_irrefl 1)
  | attr a => exact nomatch howner

/-- **A node has no query for one of the reasons, and for no other.** -/
theorem queryFor_eq_error (hn : n ∈ schema.diagram.nodes) (howner : n.isOwner = true)
    (hname : Text.lower name = n.path) {e : ReconstructionError} :
    c.compiled.queryFor c.schema name = .error e ↔ Unanswered c n e := by
  obtain ⟨as, hget⟩ := h.exists_structure hn howner
  rw [h.queryFor_eq hname hget, Reconstruction.query_eq_error]
  constructor
  · rintro (⟨htables, rfl⟩ | ⟨hseveral, t, ht, rfl⟩ | ⟨hjoinable, before, a, after, rfl, hbefore,
      hnot, rfl⟩)
    · exact h.unanswered_noTables hn howner htables
    · exact h.unanswered_noJoinKey hn howner hseveral ht
    · exact .noColumn hjoinable hget hbefore hnot
  · intro hunanswered
    cases hunanswered with
    | noTables htables => exact .inl ⟨htables, rfl⟩
    | noJoinKey _ _ hseveral ht => exact .inr (.inl ⟨hseveral, _, ht, rfl⟩)
    | noColumn hjoinable hget' hbefore hnot =>
      obtain rfl := Option.some.inj (hget.symm.trans hget')
      exact .inr (.inr ⟨hjoinable, _, _, _, rfl, hbefore, hnot, rfl⟩)

/-- **Every query selects something.** -/
theorem select_ne_nil (hn : n ∈ schema.diagram.nodes) (howner : n.isOwner = true)
    (hname : Text.lower name = n.path) {q : Query}
    (hq : c.compiled.queryFor c.schema name = .ok q) : q.select ≠ [] := by
  obtain ⟨as, hget, hquery⟩ := h.queryFor_eq_ok.mp hq
  rw [hname] at hget hquery
  obtain ⟨anchor, others, js, parts, htables, -, hparts, rfl⟩ :=
    Reconstruction.query_eq_ok.mp hquery
  have hne := h.structure_ne_nil hn howner (by rw [htables]; exact List.cons_ne_nil _ _) hget
  cases hparts with
  | nil => exact absurd rfl hne
  | cons hfirst _ =>
    have hitems := (Reconstruction.shows_itemsFor hfirst).1
    simp [hitems]

end Passes

/-- **An entity or relationship has no query exactly for one of the three reasons**, under any
spelling of its name and in any dialect; nor is there any other reason if a reader of SQL checks
the queries that accepts those that select something. -/
theorem unanswered_iff (h : ofDecl schema groupings s = .ok c) (hn : n ∈ c.compiled.diagram.nodes)
    (howner : n.isOwner = true) (hname : Text.lower name = n.path) (d : Dialect) (validate : Bool)
    (e : ReconstructionError) :
    (c.compiled.queryText c.schema d validate name = .error e ↔ Unanswered c n e) ∧
      ∀ accepts : Dialect → String → Bool,
        (∀ q, c.compiled.queryFor c.schema name = .ok q → q.select ≠ [] →
          accepts d (q.text d) = true) →
        ((c.compiled.queryFor c.schema name >>= Reconstruction.renderBy accepts d validate) =
          .error e ↔ Unanswered c n e) := by
  have hpasses := ofDecl_eq_ok.mp h
  rw [hpasses.diagram] at hn
  rw [CompiledDiagram.queryText, ← hpasses.queryFor_eq_error hn howner hname]
  have hselect : ∀ q, c.compiled.queryFor c.schema name = .ok q → q.select ≠ [] := fun q hq =>
    hpasses.select_ne_nil hn howner hname hq
  constructor
  · rw [bind_eq_error]
    refine or_iff_left ?_
    rintro ⟨q, hq, herror⟩
    have hreadable : q.isReadable = true := by simp [Query.isReadable, hselect q hq]
    rw [Reconstruction.render, hreadable, Bool.not_true, Bool.and_false] at herror
    exact nomatch herror
  · intro accepts haccepts
    rw [bind_eq_error]
    refine or_iff_left ?_
    rintro ⟨q, hq, herror⟩
    rw [Reconstruction.renderBy, haccepts q hq (hselect q hq), Bool.not_true,
      Bool.and_false] at herror
    exact nomatch herror

/-! ## 5. An example -/

/-- A reader that refuses the text of a query that selects nothing. -/
def refusesEmpty (_ : Dialect) (text : String) : Bool :=
  !"SELECT\nFROM".toList.isPrefixOf text.toList

/-- Courses have a query that selects something; seminars have none, because the first of their
tables without a key is one of several. -/
theorem unanswered_seminar : ∃ c course seminar,
    ofDecl .sections (Grouping.ofSections.map .ofNames) .standard = .ok c ∧
      course ∈ c.compiled.diagram.nodes ∧ course.path = "course" ∧
      (∀ e, ¬Unanswered c course e) ∧
      (∀ e, (c.compiled.queryFor c.schema "COURSE" >>=
        Reconstruction.renderBy refusesEmpty .postgres true) ≠ .error e) ∧
      seminar ∈ c.compiled.diagram.nodes ∧ seminar.path = "seminar" ∧
      Unanswered c seminar (.noJoinKey "seminar" "rel1") := by
  have heval : (ofDecl .sections (Grouping.ofSections.map .ofNames) .standard).toOption.any
      (fun c => (c.compiled.diagram.nodes.any fun n => n.isOwner && decide (n.path = "course")) &&
        (c.compiled.diagram.nodes.any fun n => n.isOwner && decide (n.path = "seminar")) &&
        ((c.compiled.queryFor c.schema "COURSE").toOption.any fun q =>
          refusesEmpty .postgres (q.text .postgres)) &&
        decide (c.compiled.queryText c.schema .postgres true "Seminar" =
          .error (.noJoinKey "seminar" "rel1"))) = true := by
    decide +kernel
  obtain ⟨c, hc, heval⟩ := exists_of_any heval
  simp only [Bool.and_eq_true, List.any_eq_true, decide_eq_true_eq] at heval
  obtain ⟨⟨⟨⟨course, hcourse, hcourseOwner, hcoursePath⟩, seminar, hseminar, hseminarOwner,
    hseminarPath⟩, hreadable⟩, herror⟩ := heval
  obtain ⟨q, hq, hreadable⟩ := exists_of_any hreadable
  have hanswers := fun e => unanswered_iff hc hcourse hcourseOwner
    (show Text.lower "COURSE" = course.path by rw [hcoursePath]; decide +kernel) .postgres true e
  have hchecked : ∀ e, (c.compiled.queryFor c.schema "COURSE" >>=
      Reconstruction.renderBy refusesEmpty .postgres true) ≠ .error e := by
    intro e
    rw [hq, ok_bind, Reconstruction.renderBy, hreadable]
    exact nofun
  refine ⟨c, course, seminar, hc, hcourse, hcoursePath, fun e hunanswered => hchecked e ?_,
    hchecked, hseminar, hseminarPath, ?_⟩
  · refine ((hanswers e).2 refusesEmpty fun q' hq' _ => ?_).mpr hunanswered
    rw [← Except.ok.inj (hq.symm.trans hq')]
    exact hreadable
  · exact (unanswered_iff hc hseminar hseminarOwner (by rw [hseminarPath]; decide +kernel)
      .postgres true _).1.mp herror

end Compilation

end EntityLayout
